import OAuth2Monitoring.Bff.Logout
import OAuth2Monitoring.Bff.Provenance

/-!
# A deleted session stays deleted

The store remembers for a while that a session was deleted, and does not revive it meanwhile: a
request that has read the session before the delete may still put it back, and the put does nothing.
So a logout is final unless a request that was under way at the time is still under way when the
tombstone is swept, and puts the session then. No request that began after the delete can bring the
session back, whatever it does.

## Main definitions

* `Revives`: a put by a request that had read the session before the delete, after the tombstone.
* `Gone`: the row is a tombstone, or it is absent and the tombstone's time is over.

## Main results

* `deleted_of_run`: no lookup finds a deleted session, unless a stale put revives it.
-/

namespace Bff

open GoStd Interleaving Interleaving.Prog

variable {d : Deps} {srv : Server d}

/-- The pools of the server, and what they go on to. -/
abbrev Server.Later (srv : Server d) :
    Pool (World d) Request (@Res d) Response → Pool (World d) Request (@Res d) Response → Prop :=
  Interleaving.Later (Answers srv.cfg) srv.handler (Env srv.cfg)

/-- Between the two pools, when the tombstone of the first one's time was over, a request was about
to put the session `id`, which it had read before the first pool. -/
def Revives (srv : Server d) (id : Bytes) (P P' : Pool (World d) Request (@Res d) Response) :
    Prop :=
  ∃ Q, srv.Later P Q ∧ srv.Later Q P' ∧ P.shared.clock + d.tombstoneTTL ≤ Q.shared.clock ∧
    ∃ (t : ℕ) (r : Request) (s : d.Session) (k : Stmt Unit → Handler d),
      Q.threads[t]? = some ⟨r, .call (.sessionPut s) k⟩ ∧ d.id s = id ∧
        ReadBack (history t P.trace) s

/-- The session is not in the store: its tombstone is not older than `since`, or it was swept. -/
def Gone (id : Bytes) (since : ℤ) (w : World d) : Prop :=
  since ≤ w.clock ∧ ((∃ t, w.sessions.row id = .tombstone t ∧ since ≤ t) ∨
    w.sessions.row id = .absent ∧ since + d.tombstoneTTL ≤ w.clock)

section Gone

variable {id : Bytes} {since : ℤ} {w w' : World d} {cfg : Config}

theorem Gone.find (h : Gone id since w) : w.sessions.find id = none := by
  rcases h.2 with ⟨t, hrow, -⟩ | ⟨hrow, -⟩
  · rw [SessionStore.find, hrow]
  · rw [SessionStore.find, hrow]

theorem Gone.congr (h : Gone id since w) (hclock : w'.clock = w.clock)
    (hrow : w'.sessions.row id = w.sessions.row id) : Gone id since w' := by
  unfold Gone
  rw [hclock, hrow]
  exact h

/-- A deleted session is gone. -/
theorem Gone.delete (h : since ≤ w.clock) (k : Bytes) (hgone : k = id ∨ Gone id since w) :
    Gone id since { w with sessions := w.sessions.delete k w.clock } := by
  by_cases hk : k = id
  · subst hk
    exact ⟨h, .inl ⟨w.clock, Function.update_self .., h⟩⟩
  · rcases hgone with rfl | hgone
    · exact absurd rfl hk
    · exact hgone.congr rfl (Function.update_of_ne (Ne.symm hk) ..)

/-- The sweeper drops the tombstone when its time is over. -/
theorem Gone.sweep {res : Stmt Unit} (h : Gone id since w)
    (hans : Answers cfg w .sessionSweep res w') : Gone id since w' := by
  cases res with
  | failed =>
    obtain rfl : w' = w.countError := hans
    exact h
  | done a =>
    obtain rfl : w' = w.sweepSessions cfg := hans
    refine ⟨h.1, ?_⟩
    rcases h.2 with ⟨t, hrow, ht⟩ | ⟨hrow, hover⟩
    · have hsweep : (w.sweepSessions cfg).sessions.row id =
          if t + d.tombstoneTTL ≤ w.clock then .absent else .tombstone t := by
        simp only [World.sweepSessions, SessionStore.sweep, hrow]
      by_cases hswept : t + d.tombstoneTTL ≤ w.clock
      · rw [if_pos hswept] at hsweep
        exact .inr ⟨hsweep, by show _ ≤ w.clock; omega⟩
      · rw [if_neg hswept] at hsweep
        exact .inl ⟨t, hsweep, ht⟩
    · refine .inr ⟨?_, hover⟩
      simp only [World.sweepSessions, SessionStore.sweep, hrow]

/-- The sweeper drops its tombstone only when it is old enough. -/
theorem Gone.env (h : Gone id since w) (henv : Env cfg w w') : Gone id since w' := by
  cases henv with
  | sweepSessions res hsweep => exact h.sweep hsweep
  | ambient henv =>
    cases henv with
    | tick ht =>
      refine ⟨h.1.trans ht, ?_⟩
      rcases h.2 with htomb | ⟨habsent, hover⟩
      · exact .inl htomb
      · exact .inr ⟨habsent, hover.trans ht⟩
    | sweepPending => exact h
    | sweepLimiter b => cases b <;> exact h

/-- A put of the session does nothing while there is a tombstone. -/
theorem Gone.put_of_tombstone {s : d.Session} {t : ℤ} {res : Stmt Unit} (h : Gone id since w)
    (hid : d.id s = id) (hrow : w.sessions.row id = .tombstone t)
    (hans : Answers cfg w (.sessionPut s) res w') : Gone id since w' := by
  cases res with
  | done a =>
    obtain rfl : w' = _ := hans
    rw [SessionStore.put_of_tombstone (hid ▸ hrow)]
    exact h
  | failed =>
    obtain rfl : w' = w.countError := hans
    exact h

/-- An operation that puts no session `id` leaves it gone, and does not find it. -/
theorem Gone.answers {t : ℕ} {r : Request} {op : Op d} {res : Res op} (h : Gone id since w)
    (hput : ∀ s, op = .sessionPut s → d.id s ≠ id) (hans : Answers cfg w op res w') :
    Gone id since w' ∧ ∀ s, (⟨t, r, ⟨op, res⟩⟩ : Entry Request (@Res d)).event ≠ found id s := by
  have hkept := hans.kept
  by_cases hwrites : ∃ k, op = .sessionDelete k
  · obtain ⟨k, rfl⟩ := hwrites
    refine ⟨?_, by rintro s ⟨⟩⟩
    cases res with
    | done a =>
      obtain rfl : w' = _ := hans
      exact Gone.delete h.1 k (.inr h)
    | failed =>
      obtain rfl : w' = w.countError := hans
      exact h
  · by_cases hputs : ∃ s, op = .sessionPut s
    · obtain ⟨s, rfl⟩ := hputs
      refine ⟨?_, by rintro s ⟨⟩⟩
      cases res with
      | done a =>
        obtain rfl : w' = _ := hans
        exact h.congr rfl (SessionStore.row_put_of_ne (Ne.symm (hput s rfl)))
      | failed =>
        obtain rfl : w' = w.countError := hans
        exact h
    · by_cases hsweep : op = .sessionSweep
      · subst hsweep
        exact ⟨h.sweep hans, by rintro s ⟨⟩⟩
      · -- the rows are as before, so a `Get` finds no session `id`
        have hrows := hkept.sessions (fun s hs => hputs ⟨s, hs⟩) (fun k hk => hwrites ⟨k, hk⟩)
          hsweep
        refine ⟨h.congr hkept.clock (by rw [hrows]), ?_⟩
        rintro s hev
        cases hev
        obtain ⟨hget, -⟩ := hans
        have hfind := World.find_of_get hget.symm
        rw [h.find] at hfind
        cases hfind

end Gone

section Runs

variable {w₀ : World d} {P P' Q Q' : Pool (World d) Request (@Res d) Response}
  {newer older : Trace d} {e : Entry Request (@Res d)} {id : Bytes}

/-- One step of the run after the delete: the session stays gone and is not found, or the step is a
stale put. -/
theorem gone_step (hlaw : d.Lawful) (hgwl : srv.gateway.Lawful) (hd : d.KeepsIdentity)
    (hgw : srv.gateway.Confined) (hids : ∀ id, w₀.sessions.row id ≠ .absent → id ∈ w₀.issued)
    (hQ : srv.Run w₀ Q) (hstep : Step (Answers srv.cfg) srv.handler (Env srv.cfg) Q Q')
    (htr : Q.trace = newer ++ P.trace) (hgone : Gone id P.shared.clock Q.shared)
    (hnone : ∀ x ∈ newer, ∀ s, x.event ≠ found id s) (hknown : Known srv w₀ Q.trace id) :
    (Gone id P.shared.clock Q'.shared ∧ ∃ newer', Q'.trace = newer' ++ P.trace ∧
        ∀ x ∈ newer', ∀ s, x.event ≠ found id s) ∨
      P.shared.clock + d.tombstoneTTL ≤ Q.shared.clock ∧ ∃ (t : ℕ) (r : Request) (s : d.Session)
        (k : Stmt Unit → Handler d), Q.threads[t]? = some ⟨r, .call (.sessionPut s) k⟩ ∧
          d.id s = id ∧ ReadBack (history t P.trace) s := by
  have hQ' := hQ.step hstep
  cases hstep with
  | spawn j => exact .inl ⟨hgone, newer, htr, hnone⟩
  | env henv => exact .inl ⟨hgone.env henv, newer, htr, hnone⟩
  | @advance t r op k res w' hnext hans =>
    have hkeep : ∀ {w' : World d}, Gone id P.shared.clock w' →
        (∀ s, (⟨t, r, ⟨op, res⟩⟩ : Entry Request (@Res d)).event ≠ found id s) →
        Gone id P.shared.clock w' ∧ ∃ newer', ⟨t, r, ⟨op, res⟩⟩ :: Q.trace = newer' ++ P.trace ∧
          ∀ x ∈ newer', ∀ s, x.event ≠ found id s := by
      intro w' hgone' hev
      refine ⟨hgone', _ :: newer, by rw [htr, List.cons_append], fun x hx => ?_⟩
      rcases List.mem_cons.mp hx with rfl | hx
      · exact hev
      · exact hnone x hx
    by_cases hput : ∃ s, op = .sessionPut s ∧ d.id s = id
    · obtain ⟨s, rfl, hid⟩ := hput
      rcases hgone.2 with ⟨t', hrow, ht'⟩ | ⟨hrow, hover⟩
      · exact .inl (hkeep (hgone.put_of_tombstone hid hrow hans) (by rintro s ⟨⟩))
      · refine .inr ⟨hover, t, r, s, k, hnext, hid, ?_⟩
        have hrows := ((hQ.coherent (handler_rows hd hgw)).sat t _ hnext).1
        by_cases hcb : dispatch srv.cfg r = .handler .callback
        · -- a callback's session has an id that is in no use
          refine absurd (hid ▸ hknown) (not_known_of_createdBy hlaw hgwl hd hgw hids hQ'
            (List.nil_append _).symm ⟨rfl, hcb⟩)
        · obtain ⟨-, s', hmem, hsame⟩ := hrows.own hcb
            (honest_of_run hd hgw hQ (List.nil_append _).symm t)
          rw [htr, history_append, hid] at hmem
          rcases List.mem_append.mp hmem with hmem | hmem
          · -- since the delete it has not been found
            obtain ⟨x, hx, -, hev⟩ := mem_history.mp hmem
            exact absurd hev (hnone x hx s')
          · exact ⟨s', hid ▸ hmem, hsame⟩
    · obtain ⟨hgone', hev⟩ := hgone.answers (t := t) (r := r)
        (fun s hs hid => hput ⟨s, hs, hid⟩) hans
      exact .inl (hkeep hgone' hev)

/-- After a delete has been done, no lookup finds the session, unless a request that had read it
before the delete puts it back after the time of its tombstone. -/
theorem deleted_of_run (hlaw : d.Lawful) (hgwl : srv.gateway.Lawful) (hd : d.KeepsIdentity)
    (hgw : srv.gateway.Confined) (hids : ∀ id, w₀.sessions.row id ≠ .absent → id ∈ w₀.issued)
    (hP' : srv.Run w₀ P') (htr : P'.trace = newer ++ e :: older)
    (hdelete : e.event = ⟨.sessionDelete id, .done ()⟩) :
    ∃ P, srv.Run w₀ P ∧ P.trace = e :: older ∧ srv.Later P P' ∧
      P.shared.sessions.row id = .tombstone P.shared.clock ∧
      ((∀ x ∈ newer, ∀ s, x.event ≠ found id s) ∨ Revives srv id P P') := by
  obtain ⟨P₀, P, hP₀, -, hstep, hexec, hP, hlater⟩ := hP'.exists_cut htr
  have hrun := hP₀.step hstep
  rw [hdelete] at hexec
  have hrow : P.shared.sessions.row id = .tombstone P.shared.clock := by
    have hw : P.shared =
        { P₀.shared with sessions := P₀.shared.sessions.delete id P₀.shared.clock } := hexec
    rw [hw]
    exact Function.update_self ..
  refine ⟨P, hrun, hP, hlater, hrow, ?_⟩
  -- what holds along the rest of the run, up to the first stale put
  have hrest : (Gone id P.shared.clock P'.shared ∧ ∃ newer', P'.trace = newer' ++ P.trace ∧
      ∀ x ∈ newer', ∀ s, x.event ≠ found id s) ∨ Revives srv id P P' := by
    clear hP' htr
    induction hlater with
    | refl => exact .inl ⟨⟨le_rfl, .inl ⟨_, hrow, le_rfl⟩⟩, [], rfl, by simp⟩
    | @tail Q Q' hlater hstep ih =>
      have hQ := hrun.later hlater
      rcases ih with ⟨hgone, n, hn, hnone⟩ | ⟨R, hPR, hRQ, hover⟩
      · have hknown : Known srv w₀ Q.trace id := by
          have hknown := (rowsInv_of_run hd hgw hrun).row id (by rw [hrow]; simp)
          rcases hknown with h | ⟨x, hx, h⟩
          · exact .inl h
          · exact .inr ⟨x, hn ▸ List.mem_append_right _ hx, h⟩
        rcases gone_step hlaw hgwl hd hgw hids hQ hstep hn hgone hnone hknown with h | h
        · exact .inl h
        · exact .inr ⟨Q, hlater, .single hstep, h⟩
      · exact .inr ⟨R, hPR, hRQ.tail hstep, hover⟩
  rcases hrest with ⟨-, newer', hnewer', hnone⟩ | hrevives
  · refine .inl ?_
    rw [htr, hP] at hnewer'
    rwa [List.append_cancel_right hnewer']
  · exact .inr hrevives

end Runs

/-! ## A run -/

namespace Reference

/-- The session's browser signs out: the delete of a logout is final in the run so far. -/
theorem logout_deleted : ∃ P' newer e older, server.Run survivedWorld P' ∧
    P'.threads[0]? = some ⟨logoutRequest, .ret Server.loggedOut⟩ ∧
    P'.trace = newer ++ e :: older ∧ e.event = ⟨.sessionDelete session.id, Stmt.done ()⟩ ∧
    ∃ P, server.Run survivedWorld P ∧ P.trace = e :: older ∧ server.Later P P' ∧
      P.shared.sessions.row session.id = .tombstone P.shared.clock ∧
      ((∀ x ∈ newer, ∀ s, x.event ≠ found session.id s) ∨ Revives server session.id P P') := by
  obtain ⟨l, w', hrun, -, hmem⟩ := logoutRequest_run (w := survivedWorld) world_get rfl (by decide)
    (by decide)
  have hP : server.Run survivedWorld _ := Reachable.start.run logoutRequest hrun
  -- the delete is one of the entries
  have hentry : (⟨0, logoutRequest, ⟨.sessionDelete session.id, Stmt.done ()⟩⟩ :
      Entry Request (@Res deps)) ∈ l.reverse.map (fun ev => ⟨0, logoutRequest, ev⟩) ++ [] := by
    simpa using hmem
  obtain ⟨newer, older, htr⟩ := List.append_of_mem hentry
  exact ⟨_, newer, _, older, hP, rfl, htr, rfl, deleted_of_run lawful gateway_lawful keepsIdentity
    gateway_confined survivedWorld_issued hP htr rfl⟩

end Reference

end Bff
