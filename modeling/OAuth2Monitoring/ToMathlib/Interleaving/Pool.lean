import OAuth2Monitoring.ToMathlib.Interleaving.Prog
import Mathlib.Data.List.Basic

/-!
# Interleaved runs of programs

A pool runs any number of programs over one shared state. Programs start at any time, and in each
step one of them performs its next operation, or the environment changes the shared state by
itself. The pool keeps the trace of all operations performed, newest first.

What a program did by itself is `history`, its part of the trace. A specification `Prog.Sat` of
every program becomes a fact about every reachable pool (`Reachable.obeys`, `Reachable.returns`),
and `Reachable.invariant` is the induction rule for the shared state and the trace together.

## Main definitions

* `Pool`, `Step`, `Reachable`: the interleaving semantics.
* `history t tr`: the events of thread `t` in the trace `tr`.
* `Along C tr`: each entry of the trace satisfies `C` at the part of the trace before it.
-/

namespace Interleaving

variable {Op : Type} {Res : Op → Type} {σ ι α : Type}

/-- A started program: the job it was started for and what is left of it. -/
structure Thread (ι : Type) {Op : Type} (Res : Op → Type) (α : Type) where
  job : ι
  prog : Prog Res α

/-- One operation of a run: the thread that performed it, the thread's job, and the event. -/
structure Entry (ι : Type) {Op : Type} (Res : Op → Type) where
  tid : ℕ
  job : ι
  event : Event Res

/-- A state of an interleaved run. Threads are numbered in the order they were started in. -/
structure Pool (σ ι : Type) {Op : Type} (Res : Op → Type) (α : Type) where
  shared : σ
  threads : List (Thread ι Res α)
  trace : List (Entry ι Res)

/-- The pool in which nothing has been started. -/
def Pool.start (s : σ) : Pool σ ι Res α := { shared := s, threads := [], trace := [] }

/-- The events of thread `t`, newest first. -/
def history (t : ℕ) (tr : List (Entry ι Res)) : List (Event Res) :=
  (tr.filter fun e => e.tid = t).map Entry.event

@[simp]
theorem history_nil (t : ℕ) : history t ([] : List (Entry ι Res)) = [] := rfl

theorem history_cons (t : ℕ) (e : Entry ι Res) (tr : List (Entry ι Res)) :
    history t (e :: tr) = if e.tid = t then e.event :: history t tr else history t tr := by
  by_cases h : e.tid = t <;> simp [history, h]

@[simp]
theorem history_cons_self (e : Entry ι Res) (tr : List (Entry ι Res)) :
    history e.tid (e :: tr) = e.event :: history e.tid tr := by
  simp [history_cons]

theorem history_cons_of_ne {t : ℕ} {e : Entry ι Res} (h : e.tid ≠ t) (tr : List (Entry ι Res)) :
    history t (e :: tr) = history t tr := by
  simp [history_cons, h]

theorem history_append (t : ℕ) (newer older : List (Entry ι Res)) :
    history t (newer ++ older) = history t newer ++ history t older := by
  simp [history]

/-- The events of a thread are those of its entries. -/
theorem mem_history {t : ℕ} {ev : Event Res} {tr : List (Entry ι Res)} :
    ev ∈ history t tr ↔ ∃ e ∈ tr, e.tid = t ∧ e.event = ev := by
  simp [history, and_assoc]

/-- Each event of a thread stands somewhere in the trace, the thread's newer events before it and
its older ones behind it. -/
theorem exists_of_history_eq_append {t : ℕ} {ev : Event Res} {l rest : List (Event Res)}
    {tr : List (Entry ι Res)} (h : history t tr = l ++ ev :: rest) :
    ∃ newer e older, tr = newer ++ e :: older ∧ e.tid = t ∧ e.event = ev ∧
      history t newer = l ∧ history t older = rest := by
  induction tr generalizing l with
  | nil => simp at h
  | cons e tr ih =>
    by_cases ht : e.tid = t
    · subst ht
      rw [history_cons_self] at h
      cases l with
      | nil =>
        -- the newest entry is the event looked for
        obtain ⟨hev, hrest⟩ := List.cons.inj h
        exact ⟨[], e, tr, rfl, rfl, hev, rfl, hrest⟩
      | cons ev' l =>
        obtain ⟨hev', hl⟩ := List.cons.inj h
        obtain ⟨newer, e', older, rfl, ht', hev, hnewer, hrest⟩ := ih hl
        exact ⟨e :: newer, e', older, rfl, ht', hev, by rw [history_cons_self, hev', hnewer], hrest⟩
    · rw [history_cons_of_ne ht] at h
      obtain ⟨newer, e', older, rfl, ht', hev, hnewer, hrest⟩ := ih h
      exact ⟨e :: newer, e', older, rfl, ht', hev, by rw [history_cons_of_ne ht, hnewer], hrest⟩

/-- The newest event of a thread stands somewhere in the trace, and the thread's other events
behind it. -/
theorem exists_of_history_eq_cons {t : ℕ} {ev : Event Res} {rest : List (Event Res)}
    {tr : List (Entry ι Res)} (h : history t tr = ev :: rest) :
    ∃ newer e older, tr = newer ++ e :: older ∧ e.tid = t ∧ e.event = ev ∧
      history t older = rest := by
  obtain ⟨newer, e, older, htr, ht, hev, -, hrest⟩ := exists_of_history_eq_append (l := []) h
  exact ⟨newer, e, older, htr, ht, hev, hrest⟩

theorem mem_history_append {t : ℕ} {ev : Event Res} {newer older : List (Entry ι Res)}
    (h : ev ∈ history t older) : ev ∈ history t (newer ++ older) := by
  obtain ⟨e, he, ht, hev⟩ := mem_history.mp h
  exact mem_history.mpr ⟨e, List.mem_append_right _ he, ht, hev⟩

theorem mem_history_cons {t : ℕ} {ev : Event Res} {e : Entry ι Res} {tr : List (Entry ι Res)}
    (h : ev ∈ history t tr) : ev ∈ history t (e :: tr) := by
  obtain ⟨e', he', ht, hev⟩ := mem_history.mp h
  exact mem_history.mpr ⟨e', List.mem_cons_of_mem _ he', ht, hev⟩

/-- Each entry satisfies `C` at the part of the list behind it. -/
def Along {A : Type} (C : List A → A → Prop) : List A → Prop
  | [] => True
  | e :: tr => C tr e ∧ Along C tr

section Along

variable {A : Type} {C : List A → A → Prop}

@[simp]
theorem along_nil : Along C [] := trivial

@[simp]
theorem along_cons {e : A} {tr : List A} : Along C (e :: tr) ↔ C tr e ∧ Along C tr := Iff.rfl

instance Along.decidable [∀ tr e, Decidable (C tr e)] : (tr : List A) → Decidable (Along C tr)
  | [] => .isTrue trivial
  | _ :: tr =>
    have := Along.decidable tr
    decidable_of_iff _ along_cons.symm

/-- What holds along a list holds along its older part. -/
theorem Along.of_append {newer older : List A} (h : Along C (newer ++ older)) : Along C older := by
  induction newer with
  | nil => exact h
  | cons e newer ih => exact ih h.2

/-- What holds along the list holds of each entry at the part of the list behind it. -/
theorem Along.of_mem {tr : List A} (h : Along C tr) {e : A} (he : e ∈ tr) :
    ∃ newer older, tr = newer ++ e :: older ∧ C older e := by
  obtain ⟨newer, older, rfl⟩ := List.append_of_mem he
  exact ⟨newer, older, rfl, h.of_append.1⟩

/-- `Along` is a statement about every way of cutting the list at an entry. -/
theorem along_iff {tr : List A} :
    Along C tr ↔ ∀ newer e older, tr = newer ++ e :: older → C older e := by
  constructor
  · rintro h newer e older rfl
    exact h.of_append.1
  · intro h
    induction tr with
    | nil => trivial
    | cons e tr ih =>
      refine ⟨h [] e tr rfl, ih fun newer e' older htr => ?_⟩
      exact h (e :: newer) e' older (by rw [htr, List.cons_append])

end Along

section Semantics

variable (exec : σ → (op : Op) → Res op → σ → Prop) (code : ι → Prog Res α) (env : σ → σ → Prop)

/-- One step of a run: a job is started, a thread performs its next operation and gets an answer
`exec` admits, or the environment acts on the shared state. -/
inductive Step : Pool σ ι Res α → Pool σ ι Res α → Prop
  | spawn (P : Pool σ ι Res α) (j : ι) :
      Step P { P with threads := P.threads ++ [⟨j, code j⟩] }
  | advance (P : Pool σ ι Res α) (t : ℕ) {j : ι} {op : Op} {k : Res op → Prog Res α} (res : Res op)
      {s' : σ} (hnext : P.threads[t]? = some ⟨j, .call op k⟩) (hexec : exec P.shared op res s') :
      Step P { shared := s', threads := P.threads.set t ⟨j, k res⟩,
               trace := ⟨t, j, ⟨op, res⟩⟩ :: P.trace }
  | env (P : Pool σ ι Res α) {s' : σ} (henv : env P.shared s') : Step P { P with shared := s' }

/-- The pools a run from the shared state `s₀` passes through. -/
inductive Reachable (s₀ : σ) : Pool σ ι Res α → Prop
  | start : Reachable s₀ (Pool.start s₀)
  | step {P P' : Pool σ ι Res α} : Reachable s₀ P → Step exec code env P P' → Reachable s₀ P'

end Semantics

section Rules

variable {exec : σ → (op : Op) → Res op → σ → Prop} {code : ι → Prog Res α} {env : σ → σ → Prop}
  {Φ : ι → List (Event Res) → Op → Prop} {Ψ : ι → List (Event Res) → α → Prop}
  {s₀ : σ} {P : Pool σ ι Res α}

/-- What the threads of a reachable pool have in common: what is left of a thread satisfies the
specification of its job from the thread's history on, the trace speaks of started threads only
and under their own job, and every operation performed so far obeyed the specification. -/
structure Coherent (Φ : ι → List (Event Res) → Op → Prop) (Ψ : ι → List (Event Res) → α → Prop)
    (P : Pool σ ι Res α) : Prop where
  sat : ∀ (t : ℕ) (th : Thread ι Res α), P.threads[t]? = some th →
    th.prog.Sat (Φ th.job) (Ψ th.job) (history t P.trace)
  job : ∀ e ∈ P.trace, ∃ th : Thread ι Res α, P.threads[e.tid]? = some th ∧ th.job = e.job
  obeys : Along (fun older e => Φ e.job (history e.tid older) e.event.op) P.trace

/-- A thread that has not been started has no history. -/
theorem Coherent.history_eq_nil (h : Coherent Φ Ψ P) {t : ℕ} (ht : P.threads.length ≤ t) :
    history t P.trace = [] := by
  rw [List.eq_nil_iff_forall_not_mem]
  intro ev hev
  obtain ⟨e, he, rfl, -⟩ := mem_history.mp hev
  obtain ⟨th, hth, -⟩ := h.job e he
  rw [List.getElem?_eq_none ht] at hth
  cases hth

/-- A step keeps every thread to its contract. -/
theorem coherent_step (hcode : ∀ j, (code j).Sat (Φ j) (Ψ j) []) {P P' : Pool σ ι Res α}
    (h : Coherent Φ Ψ P) (hstep : Step exec code env P P') : Coherent Φ Ψ P' := by
  cases hstep with
  | spawn j =>
    refine ⟨fun t th hth => ?_, fun e he => ?_, h.obeys⟩
    · rcases Nat.lt_trichotomy t P.threads.length with hlt | rfl | hgt
      · rw [List.getElem?_append_left hlt] at hth
        exact h.sat t th hth
      · -- the new thread has no history yet
        rw [List.getElem?_concat_length, Option.some.injEq] at hth
        subst hth
        simpa [h.history_eq_nil (Nat.le_refl _)] using hcode j
      · rw [List.getElem?_eq_none (by simp; omega)] at hth
        cases hth
    · obtain ⟨th, hth, hj⟩ := h.job e he
      obtain ⟨hlt, -⟩ := List.getElem?_eq_some_iff.mp hth
      exact ⟨th, by rw [List.getElem?_append_left hlt, hth], hj⟩
  | @advance t j op k res s' hnext hexec =>
    have hsat := h.sat t _ hnext
    obtain ⟨hlt, -⟩ := List.getElem?_eq_some_iff.mp hnext
    refine ⟨fun t' th hth => ?_, fun e he => ?_, ⟨hsat.1, h.obeys⟩⟩
    · by_cases htt : t = t'
      · -- the thread that moves goes on from its longer history
        subst htt
        rw [List.getElem?_set_self hlt, Option.some.injEq] at hth
        subst hth
        simpa [history_cons] using hsat.2 res
      · rw [List.getElem?_set_ne htt] at hth
        simpa [history_cons, htt] using h.sat t' th hth
    · rcases List.mem_cons.mp he with rfl | he
      · exact ⟨_, List.getElem?_set_self hlt, rfl⟩
      · obtain ⟨th, hth, hj⟩ := h.job e he
        by_cases htt : t = e.tid
        · subst htt
          refine ⟨_, List.getElem?_set_self hlt, ?_⟩
          rw [hnext, Option.some.injEq] at hth
          rw [← hj, ← hth]
        · exact ⟨th, by rw [List.getElem?_set_ne htt, hth], hj⟩
  | env henv => exact ⟨h.sat, h.job, h.obeys⟩

/-- Every reachable pool is coherent. -/
theorem Reachable.coherent (hcode : ∀ j, (code j).Sat (Φ j) (Ψ j) [])
    (hP : Reachable exec code env s₀ P) : Coherent Φ Ψ P := by
  induction hP with
  | start =>
    exact ⟨fun t th hth => by simp [Pool.start] at hth,
      fun e he => by simp [Pool.start] at he, trivial⟩
  | step _ hstep ih => exact coherent_step hcode ih hstep

/-- Every operation of a run obeys the specification of its job at the thread's history. -/
theorem Reachable.obeys (hcode : ∀ j, (code j).Sat (Φ j) (Ψ j) [])
    (hP : Reachable exec code env s₀ P) :
    Along (fun older e => Φ e.job (history e.tid older) e.event.op) P.trace :=
  (hP.coherent hcode).obeys

/-- The answer of a thread that has returned obeys the specification of its job. -/
theorem Reachable.returns (hcode : ∀ j, (code j).Sat (Φ j) (Ψ j) [])
    (hP : Reachable exec code env s₀ P) {t : ℕ} {j : ι} {a : α}
    (ht : P.threads[t]? = some ⟨j, .ret a⟩) : Ψ j (history t P.trace) a :=
  (hP.coherent hcode).sat t _ ht

/-- A thread may perform several of its operations in a row. -/
theorem Reachable.advance (hP : Reachable exec code env s₀ P) {t : ℕ} {j : ι} {p q : Prog Res α}
    {l : List (Event Res)} {s' : σ} (ht : P.threads[t]? = some ⟨j, p⟩)
    (hrun : Prog.Exec exec P.shared p l q s') :
    Reachable exec code env s₀
      { shared := s', threads := P.threads.set t ⟨j, q⟩,
        trace := l.reverse.map (fun ev => ⟨t, j, ev⟩) ++ P.trace } := by
  obtain ⟨s, threads, trace⟩ := P
  dsimp only at ht hrun ⊢
  induction hrun generalizing threads trace with
  | refl s p =>
    obtain ⟨hlt, hget⟩ := List.getElem?_eq_some_iff.mp ht
    rw [← hget, List.set_getElem_self]
    exact hP
  | @call s s' s'' op k res l q hexec htail ih =>
    have hlt := (List.getElem?_eq_some_iff.mp ht).1
    have hnext := ih _ _ (hP.step (.advance _ t res ht hexec)) (List.getElem?_set_self hlt)
    simpa using hnext

/-- A job may be started and run by itself for a while. -/
theorem Reachable.run (hP : Reachable exec code env s₀ P) (j : ι) {q : Prog Res α}
    {l : List (Event Res)} {s' : σ} (hrun : Prog.Exec exec P.shared (code j) l q s') :
    Reachable exec code env s₀
      { shared := s', threads := P.threads ++ [⟨j, q⟩],
        trace := l.reverse.map (fun ev => ⟨P.threads.length, j, ev⟩) ++ P.trace } := by
  have hnext := Reachable.advance (hP.step (.spawn P j)) (t := P.threads.length)
    (List.getElem?_concat_length) hrun
  simpa using hnext

/-- The job `j` may be suspended, another one be started and run by itself, and `j` go on. -/
theorem Reachable.overlap {j j' : ι} {s₁ s₂ s₃ : σ} {p p' q : Prog Res α}
    {l₁ l₂ l₃ : List (Event Res)} (h₁ : Prog.Exec exec s₀ (code j) l₁ p s₁)
    (h₂ : Prog.Exec exec s₁ (code j') l₂ p' s₂) (h₃ : Prog.Exec exec s₂ p l₃ q s₃) :
    Reachable exec code env s₀
      { shared := s₃, threads := [⟨j, q⟩, ⟨j', p'⟩],
        trace := l₃.reverse.map (fun ev => ⟨0, j, ev⟩) ++ (l₂.reverse.map (fun ev => ⟨1, j', ev⟩) ++
          l₁.reverse.map (fun ev => ⟨0, j, ev⟩)) } := by
  have hstart : Reachable exec code env s₀ (Pool.start s₀) := .start
  have hrun := (hstart.run j h₁).run j' h₂
  simpa [Pool.start] using Reachable.advance hrun (t := 0) rfl h₃

/-- All entries of one thread carry the thread's job. -/
theorem Reachable.job_eq (hP : Reachable exec code env s₀ P) {e : Entry ι Res} (he : e ∈ P.trace)
    {t : ℕ} {th : Thread ι Res α} (hth : P.threads[t]? = some th) (het : e.tid = t) :
    e.job = th.job := by
  have hcode : ∀ j, (code j).Sat (fun _ _ => True) (fun _ _ => True) [] := fun j =>
    (code j).sat_true []
  have hcoherent : Coherent (fun _ _ _ => True) (fun _ _ _ => True) P := hP.coherent hcode
  obtain ⟨th', hth', hj⟩ := hcoherent.job e he
  rw [het, hth, Option.some.injEq] at hth'
  rw [← hj, ← hth']

/-- The induction rule for runs: an invariant of the shared state and the trace holds in every
reachable pool when it holds at the start, every operation a program may perform at its history
keeps it, and so does the environment. -/
theorem Reachable.invariant {Inv : σ → List (Entry ι Res) → Prop}
    (hcode : ∀ j, (code j).Sat (Φ j) (Ψ j) []) (hinit : Inv s₀ [])
    (hexec : ∀ s tr (e : Entry ι Res) s', Inv s tr → Φ e.job (history e.tid tr) e.event.op →
      exec s e.event.op e.event.res s' → Inv s' (e :: tr))
    (henv : ∀ s tr s', Inv s tr → env s s' → Inv s' tr)
    (hP : Reachable exec code env s₀ P) : Inv P.shared P.trace := by
  induction hP with
  | start => exact hinit
  | @step P P' hreach hstep ih =>
    cases hstep with
    | spawn j => exact ih
    | advance t res hnext hex =>
      -- the thread is coherent with its own history, so `Φ` admits the operation
      exact hexec _ _ ⟨_, _, ⟨_, res⟩⟩ _ ih ((hreach.coherent hcode).sat t _ hnext).1 hex
    | env hstep => exact henv _ _ _ ih hstep

/-- The rule for an invariant that every operation keeps, whichever program performs it. -/
theorem Reachable.invariant_of_exec {I : σ → List (Entry ι Res) → Prop} (hinit : I s₀ [])
    (hexec : ∀ s tr (e : Entry ι Res) s', I s tr → exec s e.event.op e.event.res s' →
      I s' (e :: tr))
    (henv : ∀ s tr s', I s tr → env s s' → I s' tr)
    (hP : Reachable exec code env s₀ P) : I P.shared P.trace := by
  have hcode : ∀ j, (code j).Sat (fun _ _ => True) (fun _ _ => True) [] := fun j =>
    (code j).sat_true []
  exact Reachable.invariant hcode hinit (fun s tr e s' h _ hex => hexec s tr e s' h hex) henv hP

end Rules

end Interleaving
