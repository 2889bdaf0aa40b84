import OAuth2Monitoring.Console.Contract
import Mathlib.Data.List.Nodup

/-!
# Blocked addresses and alert rules

Each list of the monitor store is loaded as a whole and changed entry by entry, as the responses
arrive. A list that the server put together before a deletion and that arrives behind it brings the
entry back, and a creation whose response arrives behind a list that has the entry already shows it
twice. As long as no such response is stored, the list has no entry twice and none whose deletion
the server has confirmed.

## Main definitions

* `Rows`: the two lists with their calls.
* `Current`: the condition on a step.
* `Server.WellFormed`: what is known of the server.

## Main results

* `rows_of_current`: the run theorem.
-/

namespace Console

open JsStd EventLoop

variable {S : Type}

/-! ## The two lists -/

/-- The lists of the monitor store that are changed entry by entry. -/
inductive Rows
  | blockedIPs
  | alertRules
  deriving DecidableEq

namespace Rows

/-- The list of the store. -/
def listing : Rows → Listing
  | blockedIPs => .blockedIPs
  | alertRules => .alertRules

/-- Where the server has it. -/
def path : Rows → Text
  | blockedIPs => blockedIPsPath
  | alertRules => alertRulesPath

/-- The property of an answer that holds the list. -/
def field : Rows → String
  | blockedIPs => "blocked_ips"
  | alertRules => "rules"

/-- Does the call load the list? -/
def lists : Rows → Call → Bool
  | blockedIPs, .fetchBlockedIPs => true
  | alertRules, .fetchAlertRules => true
  | _, _ => false

/-- Does the call create an entry? -/
def creates : Rows → Call → Bool
  | blockedIPs, .blockIP _ => true
  | alertRules, .createAlertRule _ => true
  | _, _ => false

/-- The id of the entry that the call deletes. -/
def deletes : Rows → Call → Option Text
  | blockedIPs, .unblockIP id => some id
  | alertRules, .deleteAlertRule id => some id
  | _, _ => none

/-- Does the call concern the list? -/
def concerns : Rows → Call → Bool
  | blockedIPs, .fetchBlockedIPs | blockedIPs, .blockIP _ | blockedIPs, .unblockIP _ => true
  | alertRules, .fetchAlertRules | alertRules, .createAlertRule _
  | alertRules, .updateAlertRule _ _ | alertRules, .deleteAlertRule _ => true
  | _, _ => false

/-- The list a page keeps. -/
def of (c : Rows) (m : MonitorStore) : Json := c.listing.get m

/-- The list that an answer brings. -/
def entries (c : Rows) (data : Json) : Json := Json.orFalsy (data.prop c.field) (.arr [])

theorem deletes_of_lists {c : Rows} {j : Call} (h : c.lists j = true) : c.deletes j = none := by
  cases c <;> cases j <;> first | rfl | cases h

theorem creates_of_lists {c : Rows} {j : Call} (h : c.lists j = true) : c.creates j = false := by
  cases c <;> cases j <;> first | rfl | cases h

theorem deletes_of_creates {c : Rows} {j : Call} (h : c.creates j = true) :
    c.deletes j = none := by
  cases c <;> cases j <;> first | rfl | cases h

end Rows

/-- A list of entries: no `null` among them, and no id twice. -/
def WellFormedList (v : Json) : Prop :=
  ∃ l, v = .arr l ∧ l.any Json.isNull = false ∧ (l.filterMap Json.idNumber).Nodup

/-- Each value the server sends is an object, and the lists in it name no entry twice. -/
def Server.WellFormed (srv : Server S) : Prop :=
  ∀ s request s' reply data, srv.serve s request s' (.ok reply) → reply.body = some data →
    data.isNull = false ∧ ∀ c : Rows, WellFormedList (c.entries data)

/-- The request deletes this entry. -/
def Deletes (c : Rows) (id : Text) (request : Request) : Prop :=
  request.url.path = entryPath c.path id ∧ request.method = some (text "DELETE")

/-- The server has confirmed the deletion. -/
def Confirmed (c : Rows) (p : Page S) (id : Text) : Prop :=
  ∃ x ∈ p.exchanges, Deletes c id x.request ∧
    ∃ reply, x.outcome = some (.ok reply) ∧ okStatus reply.status = true

/-- A call has learned that the entry is deleted. -/
def Learned (c : Rows) (L : State S) (id : Text) : Prop :=
  ∃ act ∈ L.acts, c.deletes act.job = some id ∧ act.pause = .settled (.ok none)

/-- What the step stores is current: a list names no entry whose deletion a call has learned, and a
created entry is not in the list yet and its deletion has not been learned. -/
def Current (c : Rows) (L : State S) : Move → Prop
  | .resume i a => ∀ act data, Resumes L i a act (.settled (.ok (some data))) →
      (c.lists act.job = true → ∀ id ∈ (c.entries data).ids, ¬Learned c L id) ∧
        (c.creates act.job = true → ∀ id, data.idNumber = some id →
          id ∉ (c.of L.shared.monitor).ids ∧ ¬Learned c L id)
  | _ => True

/-- No call that concerns the list is in flight. -/
def Idle (c : Rows) (L : State S) : Prop :=
  ∀ act ∈ L.acts, c.concerns act.job = true → ¬act.pause.Waits

instance (c : Rows) (L : State S) : Decidable (Idle c L) :=
  inferInstanceAs (Decidable (∀ act ∈ L.acts, c.concerns act.job = true → ¬act.pause.Waits))

/-! ## What the calls do to a list -/

/-- How a call that ends in a segment from `s` changes the list from `v` to `w`. -/
inductive Changes (c : Rows) (j : Call) (h : Past) (s : Page S) :
    Except String (Option Json) → Json → Json → Prop
  | none {r : Except String (Option Json)} {v : Json}
      (hdelete : ∀ id, c.deletes j = some id →
        r ≠ .ok .none ∧ (Confirms h → ∃ e, Json.filterId id v = .error e)) : Changes c j h s r v v
  | load {data v : Json} (hj : c.lists j = true) (hdata : FromServer s data) :
      Changes c j h s (.ok (some data)) v (c.entries data)
  | create {data v w : Json} (hj : c.creates j = true) (hdata : FromServer s data)
      (hadd : c.listing.add data v = .ok w) : Changes c j h s (.ok (some data)) v w
  | update {data v w : Json} (hj : c.deletes j = .none) (hset : Json.setId data v = .ok w) :
      Changes c j h s (.ok (some data)) v w
  | delete {id : Text} {v w : Json} (hj : c.deletes j = some id) (hconfirms : Confirms h)
      (hfilter : Json.filterId id v = .ok w) : Changes c j h s (.ok .none) v w

/-- A list that is stored is found in its place. -/
theorem of_set_self (c : Rows) (data : Json) (m : MonitorStore) :
    c.of (c.listing.set data m) = data := by
  cases c <;> rfl

theorem of_set_ne {c c' : Rows} (h : c ≠ c') (data : Json) (m : MonitorStore) :
    c.of (c'.listing.set data m) = c.of m := by
  cases c <;> cases c' <;> first | rfl | exact absurd rfl h

theorem of_setLoading (c : Rows) (key : String) (value : Bool) (m : MonitorStore) :
    c.of (m.setLoading key value) = c.of m := by
  cases c <;> rfl

/-- A change of one list is what the list becomes, and leaves the other one alone. -/
theorem of_change {c c' : Rows} {f : Json → Except String Json} {m m' : MonitorStore}
    (h : MonitorStore.change c'.listing f m = .ok m') :
    if c = c' then f (c.of m) = .ok (c.of m') else c.of m' = c.of m := by
  unfold MonitorStore.change at h
  cases hf : f (c'.listing.get m) with
  | error e =>
    rw [hf] at h
    cases h
  | ok data =>
    rw [hf] at h
    cases h
    -- a change of one listing leaves the other one alone
    split
    · next heq =>
      subst heq
      rw [of_set_self]
      exact hf
    · next hne => exact of_set_ne hne data m

section

variable {c c' : Rows} {j : Call} {m : MonitorStore} {h : Past} {s₀ s : Page S}

/-- A call that does not delete and changes nothing. -/
theorem Changes.same {r : Except String (Option Json)} {v w : Json} (hj : c.deletes j = .none)
    (hvw : w = v) : Changes c j h s₀ r v w := by
  subst hvw
  refine .none fun id hid => ?_
  rw [hj] at hid
  cases hid

variable (c') in
/-- What a load does to one of the lists, which may be the other one. -/
theorem changes_into {key : String} {url : Url} {r : Except String Json} (hj : c'.lists j = true)
    (hdel : c.deletes j = .none)
    (hd : (intoSpec key url (storedList c'.field c'.listing.set) m).done h s₀ s r) :
    Changes c j h s₀ (r.map some) (c.of s₀.monitor) (c.of s.monitor) := by
  obtain ⟨-, -, hr⟩ := hd
  cases r with
  | error e =>
    have hm : s.monitor = s₀.monitor.setLoading key false := hr
    exact .same hdel (by rw [hm, of_setLoading])
  | ok data =>
    obtain ⟨hdata, m', hm', hm⟩ := hr
    -- reading a property of `null` throws, so the value is no `null` here
    have hset : m' = c'.listing.set (c'.entries data) s₀.monitor := by
      cases data with
      | null => cases hm'
      | _ =>
        cases hm'
        rfl
    rw [hm, of_setLoading, hset]
    by_cases hcc : c = c'
    · subst hcc
      rw [of_set_self]
      exact .load hj hdata
    · exact .same hdel (of_set_ne hcc _ _)

variable (c') in
theorem changes_create {url : Url} {options : RequestInit} {r : Except String Json}
    (hj : c'.creates j = true) (hdel : c.deletes j = .none)
    (hd : (sendSpec url options (fun data => MonitorStore.change c'.listing (c'.listing.add data))
      m).done h s₀ s r) :
    Changes c j h s₀ (r.map some) (c.of s₀.monitor) (c.of s.monitor) := by
  obtain ⟨-, -, hr⟩ := hd
  cases r with
  | error e =>
    have hm : s.monitor = s₀.monitor := hr
    exact .same hdel (by rw [hm])
  | ok data =>
    have hchange := of_change (c := c) hr.2
    -- what the server made is added to its own listing
    split at hchange
    · next hcc =>
      subst hcc
      exact .create hj hr.1 hchange
    · exact .same hdel hchange

variable (c') in
theorem changes_update {url : Url} {options : RequestInit} {r : Except String Json}
    (hdel : c.deletes j = .none)
    (hd : (sendSpec url options (fun data => MonitorStore.change c'.listing (Json.setId data))
      m).done h s₀ s r) :
    Changes c j h s₀ (r.map some) (c.of s₀.monitor) (c.of s.monitor) := by
  obtain ⟨-, -, hr⟩ := hd
  cases r with
  | error e =>
    have hm : s.monitor = s₀.monitor := hr
    exact .same hdel (by rw [hm])
  | ok data =>
    have hchange := of_change (c := c) hr.2
    split at hchange
    · exact .update hdel hchange
    · exact .same hdel hchange

variable (c') in
theorem changes_delete {url : Url} {id : Text} {r : Except String Unit}
    (hj : c'.deletes j = some id) (hother : c ≠ c' → c.deletes j = .none)
    (hd : (deleteSpec url (MonitorStore.change c'.listing (Json.filterId id)) m).done h s₀ s r) :
    Changes c j h s₀ (r.map fun _ => none) (c.of s₀.monitor) (c.of s.monitor) := by
  obtain ⟨-, -, hr⟩ := hd
  by_cases hcc : c = c'
  · subst hcc
    cases r with
    | error e =>
      rw [hr.1]
      refine .none fun id' hid' => ⟨nofun, fun hconfirms => ?_⟩
      rw [hj, Option.some.injEq] at hid'
      subst hid'
      -- the server has confirmed it, so it is the filter that threw
      obtain ⟨e', he'⟩ := hr.2 hconfirms
      unfold MonitorStore.change at he'
      cases hf : Json.filterId id (c.listing.get s₀.monitor) with
      | error e'' => exact ⟨e'', hf⟩
      | ok data =>
        rw [hf] at he'
        cases he'
    | ok _ =>
      have hchange := of_change (c := c) hr.2
      rw [if_pos rfl] at hchange
      exact .delete hj hr.1 hchange
  · cases r with
    | error e => exact .same (hother hcc) (by rw [hr.1])
    | ok _ =>
      have hchange := of_change (c := c) hr.2
      rw [if_neg hcc] at hchange
      exact .same (hother hcc) hchange

/-- What a call does to a list when it ends. -/
theorem Call.changes {r : Except String (Option Json)} (hd : (j.spec m).done h s₀ s r) :
    Changes c j h s₀ r (c.of s₀.monitor) (c.of s.monitor) := by
  cases j with
  | fetchSecurityEvents params =>
    -- the security events are in no list of `Rows`
    obtain ⟨r', rfl, -, -, hr⟩ := hd
    have hdel : c.deletes (.fetchSecurityEvents params) = none := by cases c <;> rfl
    cases r' with
    | error e =>
      have hm : s.monitor = s₀.monitor.setLoading "events" false := hr
      exact .same hdel (by rw [hm, of_setLoading])
    | ok data =>
      obtain ⟨-, m', hm', hm⟩ := hr
      refine .same hdel ?_
      rw [hm, of_setLoading]
      cases data with
      | null => cases hm'
      | _ =>
        cases hm'
        cases c <;> rfl
  | fetchBlockedIPs =>
    obtain ⟨r', rfl, hr⟩ := hd
    exact changes_into .blockedIPs rfl (by cases c <;> rfl) hr
  | blockIP entry =>
    obtain ⟨r', rfl, hr⟩ := hd
    exact changes_create .blockedIPs rfl (by cases c <;> rfl) hr
  | unblockIP id =>
    obtain ⟨r', rfl, hr⟩ := hd
    exact changes_delete .blockedIPs rfl (by cases c <;> simp [Rows.deletes]) hr
  | fetchAlertRules =>
    obtain ⟨r', rfl, hr⟩ := hd
    exact changes_into .alertRules rfl (by cases c <;> rfl) hr
  | createAlertRule rule =>
    obtain ⟨r', rfl, hr⟩ := hd
    exact changes_create .alertRules rfl (by cases c <;> rfl) hr
  | updateAlertRule id rule =>
    obtain ⟨r', rfl, hr⟩ := hd
    exact changes_update .alertRules (by cases c <;> rfl) hr
  | deleteAlertRule id =>
    obtain ⟨r', rfl, hr⟩ := hd
    exact changes_delete .alertRules rfl (by cases c <;> simp [Rows.deletes]) hr

end

/-! ## Lists of entries -/

section

variable {c : Rows} {v w : Json} {id : Text}

/-- What is known of every value that came from the server. -/
def GoodValue (data : Json) : Prop :=
  data.isNull = false ∧ ∀ c : Rows, WellFormedList (c.entries data)

/-- A row is added with its id, and a list without repetitions stays one if the id is new. -/
theorem ids_add {data : Json} (h : c.listing.add data v = .ok w) :
    (∀ id, id ∈ w.ids ↔ id ∈ v.ids ∨ data.idNumber = some id) ∧
      (WellFormedList v → data.isNull = false → (∀ id, data.idNumber = some id → id ∉ v.ids) →
        WellFormedList w) := by
  cases v with
  | arr l =>
    cases c with
    | blockedIPs =>
      -- a blocked address goes to the front, an alert rule to the back
      cases h
      refine ⟨fun id => ?_, fun hv hnull hfresh => ?_⟩
      · simp only [Json.ids, List.mem_filterMap, List.exists_mem_cons_iff]
        exact or_comm
      · obtain ⟨l', hl, hnulls, hnodup⟩ := hv
        cases hl
        refine ⟨data :: l, rfl, by rw [List.any_cons, hnull, hnulls]; rfl, ?_⟩
        rw [List.filterMap_cons]
        cases hid : data.idNumber with
        | none => exact hnodup
        | some id => exact List.nodup_cons.mpr ⟨hfresh id hid, hnodup⟩
    | alertRules =>
      cases h
      refine ⟨fun id => ?_, fun hv hnull hfresh => ?_⟩
      · simp [Json.ids]
      · obtain ⟨l', hl, hnulls, hnodup⟩ := hv
        cases hl
        refine ⟨l ++ [data], rfl, by simp [hnulls, hnull], ?_⟩
        rw [List.filterMap_append, List.filterMap_cons]
        cases hid : data.idNumber with
        | none => simpa using hnodup
        | some id =>
          have hcons := List.nodup_cons.mpr ⟨hfresh id hid, hnodup⟩
          exact (List.perm_append_singleton id _).nodup_iff.mpr hcons
  | _ => cases c <;> cases h

/-- A deletion takes the id away and nothing else. -/
theorem ids_filterId (h : Json.filterId id v = .ok w) :
    (∀ id', id' ∈ w.ids ↔ id' ∈ v.ids ∧ id' ≠ id) ∧ (WellFormedList v → WellFormedList w) := by
  cases v with
  | arr l =>
    dsimp only [Json.filterId] at h
    -- a `null` among the entries throws
    split at h
    · cases h
    · cases h
      refine ⟨fun id' => ?_, fun hv => ?_⟩
      · rw [Json.ids, Json.filterMap_filter_id, List.mem_filter, decide_eq_true_iff]
        rfl
      · obtain ⟨l', hl, hnulls, hnodup⟩ := hv
        cases hl
        refine ⟨_, rfl, ?_, ?_⟩
        · rw [List.any_eq_false] at hnulls ⊢
          exact fun e he => hnulls e (List.mem_of_mem_filter he)
        · rw [Json.filterMap_filter_id]
          exact hnodup.filter _
  | _ => cases h

/-- Deleting from a list of entries does not throw. -/
theorem filterId_ok (hv : WellFormedList v) (id : Text) : ∃ w, Json.filterId id v = .ok w := by
  obtain ⟨l, rfl, hnulls, -⟩ := hv
  exact ⟨_, by rw [Json.filterId, if_neg (by rw [hnulls]; exact Bool.false_ne_true)]⟩

/-- An update leaves the ids as they are. -/
theorem ids_setId {data : Json} (h : Json.setId data v = .ok w) (hv : WellFormedList v) :
    w.ids = v.ids ∧ WellFormedList w := by
  obtain ⟨l, rfl, hnulls, hnodup⟩ := hv
  dsimp only [Json.setId] at h
  cases hrep : Json.replaceId data l with
  | error e =>
    rw [hrep] at h
    cases h
  | ok l' =>
    rw [hrep] at h
    cases h
    -- the entry with the id is replaced by one with the same id
    obtain ⟨hids, hnulls'⟩ := Json.replaceId_spec hrep hnulls
    exact ⟨hids, l', rfl, hnulls', by rw [hids]; exact hnodup⟩

/-- What a call leaves of a list of entries: such a list, and ids that were there or that the
server sent. -/
theorem Changes.wellFormed {j : Call} {h : Past} {s : Page S} {r : Except String (Option Json)}
    (hch : Changes c j h s r v w) (hv : WellFormedList v)
    (hserver : ∀ data, FromServer s data → GoodValue data)
    (hcreate : ∀ data id, c.creates j = true → r = .ok (some data) → data.idNumber = some id →
      id ∉ v.ids) : WellFormedList w := by
  cases hch with
  | none => exact hv
  | load hj hdata => exact (hserver _ hdata).2 c
  | create hj hdata hadd =>
    exact (ids_add hadd).2 hv (hserver _ hdata).1 fun id hid => hcreate _ id hj rfl hid
  | update hj hset => exact (ids_setId hset hv).2
  | delete hj hconfirms hfilter => exact (ids_filterId hfilter).2 hv

/-- An id that is in the list after a call was there and not deleted, or came with the answer. -/
theorem Changes.mem_ids {j : Call} {h : Past} {s : Page S} {r : Except String (Option Json)}
    (hch : Changes c j h s r v w) (hv : WellFormedList v) (hid : id ∈ w.ids) :
    (id ∈ v.ids ∧ ¬(c.deletes j = some id ∧ r = .ok .none)) ∨
      ∃ data, r = .ok (some data) ∧ (c.lists j = true ∧ id ∈ (c.entries data).ids ∨
        c.creates j = true ∧ data.idNumber = some id) := by
  cases hch with
  | none hdelete => exact .inl ⟨hid, fun h => (hdelete id h.1).1 h.2⟩
  | load hj hdata => exact .inr ⟨_, rfl, .inl ⟨hj, hid⟩⟩
  | create hj hdata hadd =>
    -- the id is an old one or the new entry's
    rcases ((ids_add hadd).1 id).mp hid with hid | hid
    · exact .inl ⟨hid, nofun⟩
    · exact .inr ⟨_, rfl, .inr ⟨hj, hid⟩⟩
  | update hj hset =>
    rw [(ids_setId hset hv).1] at hid
    exact .inl ⟨hid, nofun⟩
  | delete hj hconfirms hfilter =>
    obtain ⟨hid, hne⟩ := ((ids_filterId hfilter).1 id).mp hid
    refine .inl ⟨hid, fun h => hne ?_⟩
    rw [hj, Option.some.injEq] at h
    exact h.1.symm

end

/-! ## Runs -/

/-- The call that sent the `r`-th request, to delete this entry, waits for the response. -/
def Awaited (c : Rows) (L : State S) (r : ℕ) (id : Text) : Prop :=
  ∃ act ∈ L.acts, c.deletes act.job = some id ∧ ∃ k, act.pause = .waiting (.response r) k

/-- The `r`-th request deletes this entry, and has the outcome `o`: its call waits, or has learned
what the server has confirmed. -/
def Followed (c : Rows) (L : State S) (r : ℕ) (o : Option (Except String Reply)) (id : Text) :
    Prop :=
  Awaited c L r id ∨ o.isSome ∧
    ∀ reply, o = some (.ok reply) → okStatus reply.status = true → Learned c L id

/-- What holds in every state of a run whose steps are current. -/
structure Sound (c : Rows) (L : State S) : Prop where
  list : WellFormedList (c.of L.shared.monitor)
  learned : ∀ id ∈ (c.of L.shared.monitor).ids, ¬Learned c L id
  replies : ∀ data, FromServer L.shared data → GoodValue data
  sent : ∀ (r : ℕ) x id, L.shared.exchanges[r]? = some x → Deletes c id x.request →
    Followed c L r x.outcome id

section

variable {c : Rows} {srv : Server S} {p : Page S} {L : State S}

/-- A request that deletes an entry of the list is sent by a call that deletes it. -/
theorem deletes_of_isRequest {j : Call} {id : Text} {request : Request}
    (h : IsRequest j.url j.options request) (hdel : Deletes c id request) :
    c.deletes j = some id := by
  obtain ⟨auth, rfl⟩ := h
  obtain ⟨hpath, hmethod⟩ := hdel
  have hstart : ∀ (path : Text) id, (12 : ℕ) ≤ path.length →
      (entryPath path id).take 12 = path.take 12 := fun path id hlen => by
    rw [entryPath, List.append_assoc, List.take_append_of_le_length hlen]
  -- the two paths differ in their first twelve characters already
  have hne : ∀ id id', entryPath blockedIPsPath id ≠ entryPath alertRulesPath id' := by
    intro id id' h
    have htake := congrArg (List.take 12) h
    rw [hstart _ _ (by decide), hstart _ _ (by decide)] at htake
    exact absurd htake (by decide)
  have hcancel : ∀ (path : Text) id id', entryPath path id = entryPath path id' → id = id' :=
    fun path id id' h => List.append_cancel_left h
  cases j with
  | unblockIP id' =>
    cases c with
    | blockedIPs => exact congrArg some (hcancel _ _ _ hpath)
    | alertRules => exact absurd hpath (hne _ _)
  | deleteAlertRule id' =>
    cases c with
    | blockedIPs => exact absurd hpath.symm (hne _ _)
    | alertRules => exact congrArg some (hcancel _ _ _ hpath)
  | blockIP | createAlertRule | updateAlertRule =>
    exact absurd (Option.some.inj hmethod) (by decide)
  | _ => cases hmethod

/-- The requests of the next state are followed: those that were there, and one that the activation
at the end of its segment sent. -/
theorem followed_step {L' : State S} {j : Call} {act : Activation S}
    (hact : act ∈ L'.acts) (hj : act.job = j)
    (hsends : match act.pause with
      | .waiting q _ => Sends (IsRequest j.url j.options) L.shared L'.shared q
      | .settled _ => L'.shared.exchanges = L.shared.exchanges)
    (hold : ∀ (r : ℕ) x id, L.shared.exchanges[r]? = some x → Deletes c id x.request →
      Followed c L' r x.outcome id) :
    ∀ (r : ℕ) x id, L'.shared.exchanges[r]? = some x → Deletes c id x.request →
      Followed c L' r x.outcome id := by
  intro r x id hx hdel
  have hsame : L'.shared.exchanges = L.shared.exchanges → Followed c L' r x.outcome id := fun heq =>
    hold r x id (by rw [← heq, hx]) hdel
  cases hpause : act.pause with
  | settled r' =>
    rw [hpause] at hsends
    exact hsame hsends
  | waiting q k =>
    rw [hpause] at hsends
    rcases hsends.cases with heq | ⟨rfl, y, hreq, hout, heq⟩
    · exact hsame heq
    · rw [heq] at hx
      rcases Nat.lt_trichotomy r L.shared.exchanges.length with hlt | rfl | hgt
      · rw [List.getElem?_append_left hlt] at hx
        exact hold r x id hx hdel
      · -- the request was sent in this segment, and its call awaits the response
        rw [List.getElem?_concat_length, Option.some.injEq] at hx
        subst hx
        subst hj
        exact .inl ⟨act, hact, deletes_of_isRequest hreq hdel, k, hpause⟩
      · rw [List.getElem?_eq_none (by simp; omega)] at hx
        cases hx

/-- More of a console that the same calls wait in and that has learned as much. -/
theorem Followed.mono {L' : State S} {r : ℕ} {o : Option (Except String Reply)} {id : Text}
    (h : Followed c L r o id) (hawaited : Awaited c L r id → Followed c L' r o id)
    (hlearned : Learned c L id → Learned c L' id) : Followed c L' r o id := by
  rcases h with h | ⟨ho, h⟩
  · exact hawaited h
  · exact .inr ⟨ho, fun reply hreply hok => hlearned (h reply hreply hok)⟩

/-- A body the server gave had been given before a request was sent. -/
theorem fromServer_of_exchanges {s s' : Page S} {data : Json} {j : Call} {q : Wait}
    (h : FromServer s' data)
    (hsends : Sends (IsRequest j.url j.options) s s' q ∨ s'.exchanges = s.exchanges) :
    FromServer s data := by
  obtain ⟨x, hx, reply, hout, hbody⟩ := h
  have hsame : s'.exchanges = s.exchanges → FromServer s data := fun heq =>
    ⟨x, heq ▸ hx, reply, hout, hbody⟩
  -- a request that has just been sent has no reply yet
  rcases hsends with hsends | heq
  · rcases hsends.cases with heq | ⟨-, y, -, hopen, heq⟩
    · exact hsame heq
    · rw [heq] at hx
      rcases List.mem_append.mp hx with hx | hx
      · exact ⟨x, hx, reply, hout, hbody⟩
      · obtain rfl := List.mem_singleton.mp hx
        rw [hopen] at hout
        cases hout
  · exact hsame heq

/-- A call that starts keeps the invariant. -/
theorem sound_call {j : Call} {s : Page S} {pause : Pause (Page S) Wait.Value String (Option Json)}
    (ih : Sound c L) (hp : pause.Admits (j.spec L.shared.monitor) [] L.shared s) :
    Sound c { shared := s, acts := L.acts ++ [⟨j, L.shared, [], pause⟩] } := by
  obtain ⟨hwaits, hm⟩ := Call.first_waits hp
  have hrows : c.of s.monitor = c.of L.shared.monitor := by
    rw [hm]
    cases j <;> first | rfl | exact of_setLoading c _ _ _
  -- a call that has just begun waits, so it has learned nothing yet
  have hlearned : ∀ id, Learned c ⟨s, L.acts ++ [⟨j, L.shared, [], pause⟩]⟩ id ↔
      Learned c L id := by
    intro id
    constructor
    · rintro ⟨act, hact, hj, hpause⟩
      rcases List.mem_append.mp hact with hact | hact
      · exact ⟨act, hact, hj, hpause⟩
      · obtain rfl := List.mem_singleton.mp hact
        have hdone : pause = .settled (.ok none) := hpause
        rw [hdone] at hwaits
        exact absurd hwaits Pause.waits_settled
    · rintro ⟨act, hact, h⟩
      exact ⟨act, List.mem_append_left _ hact, h⟩
  cases pause with
  | settled r => exact absurd hwaits Pause.waits_settled
  | waiting q k =>
    have hgoes := (Call.goes hp).2
    refine ⟨?_, fun id hid => ?_, fun data hdata => ?_, ?_⟩
    · show WellFormedList (c.of s.monitor)
      rw [hrows]
      exact ih.list
    · have hid' : id ∈ (c.of L.shared.monitor).ids := by
        rw [← hrows]
        exact hid
      exact fun h => ih.learned id hid' ((hlearned id).mp h)
    · exact ih.replies data (fromServer_of_exchanges hdata (.inl hgoes))
    · refine followed_step (List.mem_append_right _ (List.mem_singleton_self _)) rfl hgoes ?_
      intro r x id hx hdel
      refine (ih.sent r x id hx hdel).mono (fun hawaited => ?_) (hlearned id).mpr
      obtain ⟨act, hact, h⟩ := hawaited
      exact .inl ⟨act, List.mem_append_left _ hact, h⟩

/-- A call that deletes and has been confirmed ends, having learned it. -/
theorem learns_of_confirms {j : Call} {m : MonitorStore} {h : Past} {s₀ s : Page S} {id : Text}
    {pause : Pause (Page S) Wait.Value String (Option Json)} (hj : c.deletes j = some id)
    (hlist : WellFormedList (c.of s₀.monitor)) (hp : pause.Admits (j.spec m) h s₀ s)
    (hconfirms : Confirms h) : pause = .settled (.ok none) := by
  cases pause with
  | waiting q k =>
    cases j with
    | unblockIP | deleteAlertRule => exact absurd hconfirms hp.2
    | _ => cases c <;> cases hj
  | settled r =>
    have hch : Changes c j h s₀ r (c.of s₀.monitor) (c.of s.monitor) := Call.changes hp
    generalize c.of s₀.monitor = v at hch hlist
    generalize c.of s.monitor = w at hch
    cases hch with
    | none hdelete =>
      -- on a well-formed list the filter does not throw
      obtain ⟨e, he⟩ := (hdelete id hj).2 hconfirms
      obtain ⟨w, hw⟩ := filterId_ok hlist id
      rw [hw] at he
      cases he
    | load hload =>
      rw [Rows.deletes_of_lists hload] at hj
      cases hj
    | create hcreate =>
      rw [Rows.deletes_of_creates hcreate] at hj
      cases hj
    | update hnone =>
      rw [hnone] at hj
      cases hj
    | delete => rfl

/-- So does one that goes on, when the load it is of is current. -/
theorem sound_resume {i : ℕ} {j : Call} {cs : Page S} {h : Past} {q : Wait}
    {k : Except String q.Value → Api S (Option Json)} {a : Except String q.Value} {s : Page S}
    {pause : Pause (Page S) Wait.Value String (Option Json)} (ih : Sound c L)
    (hC : Current c L (.resume i ⟨q, a⟩)) (hact : L.acts[i]? = some ⟨j, cs, h, .waiting q k⟩)
    (ha : settles L.shared q a) (hrun : (k a).run L.shared = (s, pause))
    (hp : pause.Admits (j.spec cs.monitor) (⟨q, a⟩ :: h) L.shared s) :
    Sound c { shared := s, acts := L.acts.set i ⟨j, cs, ⟨q, a⟩ :: h, pause⟩ } := by
  obtain ⟨hlt, -⟩ := List.getElem?_eq_some_iff.mp hact
  have hnew : (⟨j, cs, ⟨q, a⟩ :: h, pause⟩ : Activation S) ∈
      L.acts.set i ⟨j, cs, ⟨q, a⟩ :: h, pause⟩ := List.mem_set hlt _
  have hlearned : ∀ id, Learned c ⟨s, L.acts.set i ⟨j, cs, ⟨q, a⟩ :: h, pause⟩⟩ id ↔
      Learned c L id ∨ c.deletes j = some id ∧ pause = .settled (.ok none) := by
    intro id
    constructor
    · rintro ⟨act, hmem, hj, hpause⟩
      rcases List.mem_or_eq_of_mem_set hmem with hmem | rfl
      · exact .inl ⟨act, hmem, hj, hpause⟩
      · exact .inr ⟨hj, hpause⟩
    · rintro (⟨act, hmem, hj, hpause⟩ | ⟨hj, hpause⟩)
      · -- a call that has learned it has ended, so it is another one
        refine ⟨act, mem_set_of_ne hact hmem ?_, hj, hpause⟩
        rintro rfl
        cases hpause
      · exact ⟨_, hnew, hj, hpause⟩
  -- what follows a request follows it still
  have hold : ∀ (r : ℕ) x id, L.shared.exchanges[r]? = some x → Deletes c id x.request →
      Followed c ⟨s, L.acts.set i ⟨j, cs, ⟨q, a⟩ :: h, pause⟩⟩ r x.outcome id := by
    intro r x id hx hdel
    refine (ih.sent r x id hx hdel).mono (fun hawaited => ?_) fun h => (hlearned id).mpr (.inl h)
    obtain ⟨act, hmem, hj, k', hk'⟩ := hawaited
    by_cases heq : act = ⟨j, cs, h, .waiting q k⟩
    · -- its call goes on: if the server has confirmed, the call has learned it
      subst heq
      cases hk'
      obtain ⟨x', o, hx', hout, rfl⟩ := ha
      rw [hx, Option.some.injEq] at hx'
      subst hx'
      refine .inr ⟨by rw [hout]; rfl, fun reply hreply hok => (hlearned id).mpr (.inr ⟨hj, ?_⟩)⟩
      rw [hout, Option.some.injEq] at hreply
      subst hreply
      exact learns_of_confirms hj ih.list hp hok
    · exact .inl ⟨act, mem_set_of_ne hact hmem heq, hj, k', hk'⟩
  cases pause with
  | waiting q' k' =>
    have hm : s.monitor = L.shared.monitor := Call.later_waits hp
    have hgoes := (Call.goes hp).2
    have hsame : ∀ id, Learned c ⟨s, L.acts.set i ⟨j, cs, ⟨q, a⟩ :: h, .waiting q' k'⟩⟩ id →
        Learned c L id := fun id hl => ((hlearned id).mp hl).resolve_right nofun
    -- a segment that goes on waiting leaves the list alone
    refine ⟨?_, fun id hid hl => ?_, fun data hdata => ?_, followed_step hnew rfl hgoes hold⟩
    · show WellFormedList (c.of s.monitor)
      rw [hm]
      exact ih.list
    · have hid' : id ∈ (c.of L.shared.monitor).ids := hm ▸ hid
      exact ih.learned id hid' (hsame id hl)
    · exact ih.replies data (fromServer_of_exchanges hdata (.inl hgoes))
  | settled r =>
    have hch : Changes c j (⟨q, a⟩ :: h) L.shared r (c.of L.shared.monitor) (c.of s.monitor) :=
      Call.changes hp
    have hx := (Call.done_sends hp).2
    have hcurrent : ∀ data, r = .ok (some data) →
        (c.lists j = true → ∀ id ∈ (c.entries data).ids, ¬Learned c L id) ∧
          (c.creates j = true → ∀ id, data.idNumber = some id →
            id ∉ (c.of L.shared.monitor).ids ∧ ¬Learned c L id) := by
      rintro data rfl
      exact hC _ data ⟨hact, k, rfl, by rw [hrun]⟩
    refine ⟨?_, fun id hid hl => ?_, fun data hdata => ?_, followed_step hnew rfl hx hold⟩
    · exact hch.wellFormed ih.list ih.replies fun data id hj hr hid =>
        (((hcurrent data hr).2 hj) id hid).1
    · rcases hch.mem_ids ih.list hid with ⟨hid, hnot⟩ | ⟨data, rfl, hdata⟩
      · -- the entry was there before, and was not the one this call has deleted
        rcases (hlearned id).mp hl with hl | ⟨hj, hr⟩
        · exact ih.learned id hid hl
        · exact hnot ⟨hj, by cases hr; rfl⟩
      · -- the entry comes with the reply, which is current
        have hl' : Learned c L id := ((hlearned id).mp hl).resolve_right fun h => by cases h.2
        rcases hdata with ⟨hj, hid⟩ | ⟨hj, hid⟩
        · exact (hcurrent data rfl).1 hj id hid hl'
        · exact ((hcurrent data rfl).2 hj id hid).2 hl'
    · exact ih.replies data (fromServer_of_exchanges (j := j) (q := .json 0) hdata (.inr hx))

/-- So does what the server and the user do. -/
theorem sound_env {e : Event} {s : Page S} (hsrv : srv.WellFormed) (ih : Sound c L)
    (he : srv.happens L.shared e s) : Sound c { L with shared := s } := by
  have hm := Server.happens_monitor he
  have hlist : WellFormedList (c.of s.monitor) := by
    rw [hm]
    exact ih.list
  have hlearned : ∀ id ∈ (c.of s.monitor).ids, ¬Learned c L id := by
    rw [hm]
    exact ih.learned
  have hrest : s.exchanges = L.shared.exchanges → Sound c { L with shared := s } := fun hx =>
    ⟨hlist, hlearned,
      fun data hdata => ih.replies data (fromServer_of_exchanges (j := .fetchBlockedIPs)
        (q := .json 0) hdata (.inr hx)),
      fun r x id hr hdel => ih.sent r x id (by rw [← hx]; exact hr) hdel⟩
  cases e with
  | serve r o =>
    obtain ⟨x, v, hx, hopen, hserve, rfl⟩ := he
    obtain ⟨hlt, -⟩ := List.getElem?_eq_some_iff.mp hx
    refine ⟨hlist, hlearned, ?_, fun r' y id hy hdel => ?_⟩
    · rintro data ⟨y, hy, reply, hout, hbody⟩
      rcases List.mem_or_eq_of_mem_set hy with hy | rfl
      · exact ih.replies data ⟨y, hy, reply, hout, hbody⟩
      · -- the reply of this step, which a well-formed server has sent
        rw [Option.some.injEq] at hout
        subst hout
        exact hsrv _ _ _ reply data hserve hbody
    · rcases getElem?_set_cases hx hy with ⟨rfl, rfl⟩ | ⟨-, hy⟩
      · -- the request was open, so its call still waits
        rcases ih.sent r' x id hx hdel with hawaited | ⟨ho, -⟩
        · exact .inl hawaited
        · rw [hopen] at ho
          cases ho
      · exact ih.sent r' y id hy hdel
  | drift =>
    obtain ⟨v, -, rfl⟩ := he
    exact hrest rfl
  | _ =>
    obtain rfl := he
    exact hrest rfl

/-- Every state of a run whose steps are current is sound. -/
theorem Run.sound {auth : AuthStore} {monitor : MonitorStore} {server : S} (hsrv : srv.WellFormed)
    (hlist : WellFormedList (c.of monitor))
    (hL : Run srv (Current c) (.init auth monitor server) L) : Sound c L := by
  refine Reachable.invariant (I := Sound c) (S := fun j s => j.spec s.monitor) Call.sat ?_
    (fun L j s p ih _ _ hp => sound_call ih hp)
    (fun L i j cs h q k a s p ih hC hact ha hrun hp => sound_resume ih hC hact ha hrun hp)
    (fun L e s ih _ he => sound_env hsrv ih he) hL
  refine ⟨hlist, ?_, ?_, fun r x id hx => by simp [Page.init] at hx⟩
  · rintro id - ⟨act, hact, -⟩
    cases hact
  · rintro data ⟨x, hx, -⟩
    cases hx

theorem concerns_of_deletes {j : Call} {id : Text} (h : c.deletes j = some id) :
    c.concerns j = true := by
  cases c <;> cases j <;> first | rfl | cases h

/-- In every run of the console against a server that sends well-formed lists, in which each list
and each created entry that is stored is current: when no call that concerns the list is in flight,
the list names no entry twice, and none whose deletion the server has confirmed. -/
theorem rows_of_current {auth : AuthStore} {monitor : MonitorStore} {server : S}
    (hsrv : srv.WellFormed) (hlist : WellFormedList (c.of monitor))
    (hL : Run srv (Current c) (.init auth monitor server) L) (hidle : Idle c L) :
    (c.of L.shared.monitor).ids.Nodup ∧
      ∀ id, Confirmed c L.shared id → id ∉ (c.of L.shared.monitor).ids := by
  have hsound : Sound c L := Run.sound hsrv hlist hL
  refine ⟨?_, ?_⟩
  · obtain ⟨l, hl, -, hnodup⟩ := hsound.list
    rw [hl]
    exact hnodup
  · rintro id ⟨x, hx, hdel, reply, hout, hok⟩ hid
    obtain ⟨r, hr⟩ := List.mem_iff_getElem?.mp hx
    rcases hsound.sent r x id hr hdel with ⟨act, hact, hj, k, hk⟩ | ⟨-, hlearned⟩
    · -- a call that awaits the confirmation is in flight
      refine hidle act hact (concerns_of_deletes hj) ?_
      rw [hk]
      trivial
    · exact hsound.learned id hid (hlearned reply hout hok)

end

/-! ## A server of blocked addresses -/

/-- The blocked addresses by their numbers, and the number that is given next. -/
structure Ledger where
  next : ℕ
  live : List ℕ
  nodup : live.Nodup
  below : ∀ n ∈ live, n < next

/-- The number of an entry as it is printed: 1, 11, 111 and so on. -/
def idText (n : ℕ) : Text := List.replicate (n + 1) 49

/-- An entry, and the list of the entries, as the server sends them. -/
def entryJson (n : ℕ) : Json := .obj [(text "id", .num (idText n))]

/-- The server's answer to a load. -/
def listJson (l : List ℕ) : Json := .obj [(text "blocked_ips", .arr (l.map entryJson))]

namespace Ledger

/-- A new entry. -/
def create (s : Ledger) : Ledger where
  next := s.next + 1
  live := s.live ++ [s.next]
  nodup := by
    have hnew : s.next ∉ s.live := fun h => Nat.lt_irrefl _ (s.below _ h)
    exact (List.perm_append_singleton _ _).nodup_iff.mpr (List.nodup_cons.mpr ⟨hnew, s.nodup⟩)
  below n hn := by
    rcases List.mem_append.mp hn with hn | hn
    · exact Nat.lt_succ_of_lt (s.below n hn)
    · obtain rfl := List.mem_singleton.mp hn
      exact Nat.lt_succ_self _

/-- The entry with this path is dropped. -/
def delete (s : Ledger) (path : Text) : Ledger where
  next := s.next
  live := s.live.filter fun n => entryPath blockedIPsPath (idText n) ≠ path
  nodup := s.nodup.filter _
  below n hn := s.below n (List.mem_of_mem_filter hn)

/-- One request. -/
def handle (s : Ledger) (request : Request) : Ledger × Reply :=
  if request.method = some (text "DELETE") then (s.delete request.url.path, ⟨200, none⟩)
  else if request.method = some (text "POST") then (s.create, ⟨201, some (entryJson s.next)⟩)
  else (s, ⟨200, some (listJson s.live)⟩)

/-- The server processes one request at a time, and nothing else changes it. -/
def server : Server Ledger where
  serve s request s' o := s' = (s.handle request).1 ∧ o = .ok (s.handle request).2
  drift _ _ := False

/-- One address is blocked. -/
def one : Ledger := { next := 1, live := [0], nodup := by decide, below := by decide }

end Ledger

/-- Different numbers are different ids. -/
theorem idText_injective : Function.Injective idText := fun n n' h => by
  have hlen := congrArg List.length h
  simpa [idText] using hlen

theorem ids_listJson (l : List ℕ) : (l.map entryJson).filterMap Json.idNumber = l.map idText := by
  rw [List.filterMap_map, ← List.filterMap_eq_map]
  rfl

theorem wellFormedList_nil : WellFormedList (.arr []) := ⟨[], rfl, rfl, List.nodup_nil⟩

/-- The sample server keeps its ids apart. -/
theorem Ledger.wellFormed_server : Ledger.server.WellFormed := by
  rintro s request s' reply data ⟨-, ho⟩ hbody
  obtain rfl := Except.ok.inj ho
  unfold Ledger.handle at hbody
  split at hbody
  · cases hbody
  · split at hbody
    · cases hbody
      exact ⟨rfl, fun c => by cases c <;> exact wellFormedList_nil⟩
    · cases hbody
      refine ⟨rfl, fun c => ?_⟩
      cases c with
      | blockedIPs =>
        -- the entries are the live ones, each under an id of its own
        refine ⟨s.live.map entryJson, rfl, ?_, ?_⟩
        · rw [List.any_map, List.any_eq_false]
          exact fun n _ => Bool.false_ne_true
        · rw [ids_listJson]
          exact s.nodup.map idText_injective
      | alertRules => exact wellFormedList_nil

/-! ## Two runs -/

/-- A page of a server with one blocked address. -/
def ledgerPage : Page Ledger := .fresh .one

/-- The server processes the `r`-th request. -/
def State.processed (L : State Ledger) (r : ℕ) : State Ledger :=
  match L.shared.exchanges[r]? with
  | some x =>
    L.replied r (L.shared.server.handle x.request).1 (.ok (L.shared.server.handle x.request).2)
  | none => L

section

variable {C : State Ledger → Move → Prop} {p : Page Ledger} {L : State Ledger} {c : Rows}

/-- The server answers a request that is open. -/
theorem Run.processed (hL : Run Ledger.server C p L) (r : ℕ)
    (hopen : ((L.shared.exchanges[r]?).bind Exchange.outcome).isNone = true)
    (hC : ∀ e, C L (.env e)) : Run Ledger.server C p (State.processed L r) := by
  unfold State.processed
  split
  · next x hx =>
    rw [hx] at hopen
    exact Run.replied hL r _ _ hx (Option.isNone_iff_eq_none.mp hopen) ⟨rfl, rfl⟩ hC
  · exact hL

/-- Without deletions and creations, everything is current. -/
theorem current_of_lists (h : ∀ act ∈ L.acts, c.lists act.job = true) (i : ℕ)
    (a : Answered Wait.Value String) : Current c L (.resume i a) := by
  intro act data hresumes
  have hact := h act (List.mem_of_getElem? hresumes.1)
  refine ⟨fun _ id _ => ?_, fun hcreates => ?_⟩
  · rintro ⟨act', hact', hdel, -⟩
    rw [Rows.deletes_of_lists (h act' hact')] at hdel
    cases hdel
  · rw [Rows.creates_of_lists hact] at hcreates
    cases hcreates

/-- The answers to a call that deletes are current. -/
theorem current_of_deletes {i : ℕ} {id : Text}
    (h : (L.acts[i]?).map Act.job = some (.unblockIP id)) (a : Answered Wait.Value String) :
    Current c L (.resume i a) := by
  intro act data hresumes
  rw [hresumes.1, Option.map_some, Option.some.injEq] at h
  rw [h]
  cases c <;> exact ⟨nofun, nofun⟩

end

/-- The list is loaded, and then its entry deleted. -/
def listLoaded : State Ledger :=
  State.resumed (State.resumed
    (State.processed ((Loop.start ledgerPage).called Call.body .fetchBlockedIPs) 0) 0) 0

/-- A list is loaded and a row deleted after it, both answered in turn. -/
def loadedThenDeleted : State Ledger :=
  State.resumed (State.processed (listLoaded.called Call.body (.unblockIP (idText 0))) 1) 1

theorem run_loadedThenDeleted :
    Run Ledger.server (Current .blockedIPs) ledgerPage loadedThenDeleted := by
  have h₁ : Run Ledger.server (Current .blockedIPs) ledgerPage _ :=
    Reachable.start.called .fetchBlockedIPs trivial
  have h₂ := Run.processed h₁ 0 rfl fun _ => trivial
  have h₃ := Run.resumed h₂ 0 rfl (current_of_lists (by decide +kernel) 0)
  have h₄ := Run.resumed h₃ 0 rfl (current_of_lists (by decide +kernel) 0)
  have h₅ := h₄.called (.unblockIP (idText 0)) trivial
  have h₆ := Run.processed h₅ 1 rfl fun _ => trivial
  exact Run.resumed h₆ 1 rfl (current_of_deletes rfl)

/-- The list is empty in the end. -/
theorem loadedThenDeleted_rows :
    (Rows.blockedIPs.of listLoaded.shared.monitor).ids = [idText 0] ∧
      Confirmed .blockedIPs loadedThenDeleted.shared (idText 0) ∧
      idText 0 ∉ (Rows.blockedIPs.of loadedThenDeleted.shared.monitor).ids := by
  have hlist : WellFormedList (Rows.blockedIPs.of MonitorStore.init) := wellFormedList_nil
  have hconfirmed : Confirmed .blockedIPs loadedThenDeleted.shared (idText 0) :=
    ⟨_, List.mem_of_getElem? (i := 1) rfl, ⟨rfl, rfl⟩, ⟨200, none⟩, rfl, rfl⟩
  have hrows := rows_of_current Ledger.wellFormed_server hlist run_loadedThenDeleted
    (by decide +kernel)
  exact ⟨rfl, hconfirmed, hrows.2 _ hconfirmed⟩

/-- The list is loaded, but the answer arrives only after its entry was deleted. -/
def deletedThenLoaded : State Ledger :=
  let listed := State.processed ((Loop.start ledgerPage).called Call.body .fetchBlockedIPs) 0
  State.resumed (State.resumed (State.resumed (State.processed
    (listed.called Call.body (.unblockIP (idText 0))) 1) 1) 0) 0

/-- An address is blocked, and the answer arrives after a list that was loaded behind it. -/
def createdThenListed : State Ledger :=
  let created := State.processed ((Loop.start ledgerPage).called Call.body (.blockIP .null)) 0
  let listed := State.processed (created.called Call.body .fetchBlockedIPs) 1
  State.resumed (State.resumed (State.resumed (State.resumed listed 1) 1) 0) 0

theorem run_deletedThenLoaded :
    Run Ledger.server (fun _ _ => True) ledgerPage deletedThenLoaded := by
  have h₁ : Run Ledger.server (fun _ _ => True) ledgerPage _ :=
    Reachable.start.called .fetchBlockedIPs trivial
  have h₂ := Run.processed h₁ 0 rfl fun _ => trivial
  have h₃ := h₂.called (.unblockIP (idText 0)) trivial
  have h₄ := Run.processed h₃ 1 rfl fun _ => trivial
  have h₅ := Run.resumed h₄ 1 rfl fun _ => trivial
  have h₆ := Run.resumed h₅ 0 rfl fun _ => trivial
  exact Run.resumed h₆ 0 rfl fun _ => trivial

theorem run_createdThenListed :
    Run Ledger.server (fun _ _ => True) ledgerPage createdThenListed := by
  have h₁ : Run Ledger.server (fun _ _ => True) ledgerPage _ :=
    Reachable.start.called (.blockIP .null) trivial
  have h₂ := Run.processed h₁ 0 rfl fun _ => trivial
  have h₃ := h₂.called .fetchBlockedIPs trivial
  have h₄ := Run.processed h₃ 1 rfl fun _ => trivial
  have h₅ := Run.resumed h₄ 1 rfl fun _ => trivial
  have h₆ := Run.resumed h₅ 1 rfl fun _ => trivial
  have h₇ := Run.resumed h₆ 0 rfl fun _ => trivial
  exact Run.resumed h₇ 0 rfl fun _ => trivial

/-- The deleted entry is back, and the created one is there twice. -/
theorem staleRows :
    (Run Ledger.server (fun _ _ => True) ledgerPage deletedThenLoaded ∧
      Idle .blockedIPs deletedThenLoaded ∧
      Confirmed .blockedIPs deletedThenLoaded.shared (idText 0) ∧
        (Rows.blockedIPs.of deletedThenLoaded.shared.monitor).ids = [idText 0]) ∧
      (Run Ledger.server (fun _ _ => True) ledgerPage createdThenListed ∧
        Idle .blockedIPs createdThenListed ∧
        (Rows.blockedIPs.of createdThenListed.shared.monitor).ids =
          [idText 1, idText 0, idText 1]) ∧
      ¬∀ (S : Type) (srv : Server S) (c : Rows) (auth : AuthStore) (monitor : MonitorStore)
        (server : S) (L : State S), srv.WellFormed → WellFormedList (c.of monitor) →
        Run srv (fun _ _ => True) (.init auth monitor server) L → Idle c L →
        (c.of L.shared.monitor).ids.Nodup ∧
          ∀ id, Confirmed c L.shared id → id ∉ (c.of L.shared.monitor).ids := by
  have hconfirmed : Confirmed .blockedIPs deletedThenLoaded.shared (idText 0) :=
    ⟨_, List.mem_of_getElem? (i := 1) rfl, ⟨rfl, rfl⟩, ⟨200, none⟩, rfl, rfl⟩
  have hidle : Idle .blockedIPs deletedThenLoaded := by decide +kernel
  refine ⟨⟨run_deletedThenLoaded, hidle, hconfirmed, rfl⟩,
    ⟨run_createdThenListed, by decide +kernel, rfl⟩, fun hall => ?_⟩
  -- the first run refutes that a confirmed deletion is final
  have hlist : WellFormedList (Rows.blockedIPs.of MonitorStore.init) := wellFormedList_nil
  have hrun := hall Ledger Ledger.server .blockedIPs _ _ _ deletedThenLoaded
    Ledger.wellFormed_server hlist run_deletedThenLoaded hidle
  exact hrun.2 (idText 0) hconfirmed (List.mem_singleton_self _)

end Console
