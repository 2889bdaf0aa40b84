import OAuth2Monitoring.ToMathlib.EventLoop.Async
import Mathlib.Data.List.Basic

/-!
# An event loop

Any number of activations of asynchronous functions over one shared state. In each step a function
is called and runs its first segment, an activation that awaits something is answered and runs its
next one, or the environment changes the shared state. A segment is not interrupted.

A condition on the steps of a run says which runs are meant: `Reachable C` are the loops that a run
reaches in which each step meets `C` in the loop it is taken in.

## Main definitions

* `Act`: an activation with its past, `Loop`: the shared state and the activations.
* `Step`, `Reachable`: the semantics.
* `Coherent`: what is left of every activation satisfies its specification.

## Main results

* `Reachable.invariant`: the induction rule for runs, one case a kind of step.
-/

namespace EventLoop

variable {σ ι η Q ε α : Type} {Ans : Q → Type}

/-- An activation: the job it was called for, the shared state it was called in, what it was
answered so far, newest first, and where its last segment ended. -/
structure Act (σ ι : Type) {Q : Type} (Ans : Q → Type) (ε α : Type) where
  job : ι
  called : σ
  past : List (Answered Ans ε)
  pause : Pause σ Ans ε α

/-- The shared state, and the activations in the order of their calls. -/
structure Loop (σ ι : Type) {Q : Type} (Ans : Q → Type) (ε α : Type) where
  shared : σ
  acts : List (Act σ ι Ans ε α)

/-- What a step does: a call, an answer for the `i`-th activation, an event of the environment. -/
inductive Label (ι η : Type) {Q : Type} (Ans : Q → Type) (ε : Type)
  | call (j : ι)
  | resume (i : ℕ) (a : Answered Ans ε)
  | env (e : η)

namespace Loop

/-- Nothing has been called. -/
def start (s : σ) : Loop σ ι Ans ε α := { shared := s, acts := [] }

@[simp]
theorem shared_start (s : σ) : (start s : Loop σ ι Ans ε α).shared = s := rfl

@[simp]
theorem acts_start (s : σ) : (start s : Loop σ ι Ans ε α).acts = [] := rfl

end Loop

/-! ## Replacing an activation -/

section

variable {A : Type} {l : List A} {i i' : ℕ} {x y z : A}

/-- What stands in a list in which one element was replaced. -/
theorem getElem?_set_cases (hx : l[i]? = some x) (hz : (l.set i y)[i']? = some z) :
    i' = i ∧ z = y ∨ i' ≠ i ∧ l[i']? = some z := by
  obtain ⟨hlt, -⟩ := List.getElem?_eq_some_iff.mp hx
  by_cases hi : i' = i
  · subst hi
    rw [List.getElem?_set_self hlt] at hz
    exact .inl ⟨rfl, (Option.some.inj hz).symm⟩
  · rw [List.getElem?_set_ne (Ne.symm hi)] at hz
    exact .inr ⟨hi, hz⟩

/-- An element other than the one that is replaced stays. -/
theorem mem_set_of_ne (hx : l[i]? = some x) (hz : z ∈ l) (hne : z ≠ x) : z ∈ l.set i y := by
  obtain ⟨k, hk⟩ := List.mem_iff_getElem?.mp hz
  have hki : i ≠ k := fun heq => by
    rw [← heq, hx, Option.some.injEq] at hk
    exact hne hk.symm
  exact List.mem_of_getElem? (by rw [List.getElem?_set_ne hki, hk])

/-- A property that the old and the new element share is had by some element before exactly when it
is afterwards. -/
theorem exists_mem_set_iff {P : A → Prop} (hx : l[i]? = some x) (h : P y ↔ P x) :
    (∃ z ∈ l.set i y, P z) ↔ ∃ z ∈ l, P z := by
  obtain ⟨hlt, -⟩ := List.getElem?_eq_some_iff.mp hx
  constructor
  · rintro ⟨z, hz, hPz⟩
    rcases List.mem_or_eq_of_mem_set hz with hz | rfl
    · exact ⟨z, hz, hPz⟩
    · exact ⟨x, List.mem_of_getElem? hx, h.mp hPz⟩
  · rintro ⟨z, hz, hPz⟩
    -- the element that is replaced has the property if and only if the new one has
    by_cases hzx : z = x
    · subst hzx
      exact ⟨y, List.mem_set hlt y, h.mpr hPz⟩
    · exact ⟨z, mem_set_of_ne hx hz hzx, hPz⟩

end

section Semantics

variable (body : ι → Async σ Ans ε α) (settles : σ → (q : Q) → Except ε (Ans q) → Prop)
  (env : σ → η → σ → Prop)

/-- One step of the loop. -/
inductive Step : Loop σ ι Ans ε α → Label ι η Ans ε → Loop σ ι Ans ε α → Prop
  | call (L : Loop σ ι Ans ε α) (j : ι) :
      Step L (.call j) { shared := ((body j).run L.shared).1,
                         acts := L.acts ++ [⟨j, L.shared, [], ((body j).run L.shared).2⟩] }
  | resume (L : Loop σ ι Ans ε α) (i : ℕ) {j : ι} {c : σ} {h : List (Answered Ans ε)} {q : Q}
      {k : Except ε (Ans q) → Async σ Ans ε α} (a : Except ε (Ans q))
      (hact : L.acts[i]? = some ⟨j, c, h, .waiting q k⟩) (ha : settles L.shared q a) :
      Step L (.resume i ⟨q, a⟩)
        { shared := ((k a).run L.shared).1,
          acts := L.acts.set i ⟨j, c, ⟨q, a⟩ :: h, ((k a).run L.shared).2⟩ }
  | env (L : Loop σ ι Ans ε α) (e : η) {s : σ} (he : env L.shared e s) :
      Step L (.env e) { L with shared := s }

/-- The loops a run from the shared state `s₀` passes through, each of its steps meeting `C` in the
loop it is taken in. -/
inductive Reachable (C : Loop σ ι Ans ε α → Label ι η Ans ε → Prop) (s₀ : σ) :
    Loop σ ι Ans ε α → Prop
  | start : Reachable C s₀ (Loop.start s₀)
  | step {L L' : Loop σ ι Ans ε α} {l : Label ι η Ans ε} :
      Reachable C s₀ L → C L l → Step body settles env L l L' → Reachable C s₀ L'

/-- The steps `ls` lead from one loop to the other. -/
inductive Runs : Loop σ ι Ans ε α → List (Label ι η Ans ε) → Loop σ ι Ans ε α → Prop
  | nil (L : Loop σ ι Ans ε α) : Runs L [] L
  | cons {L L' L'' : Loop σ ι Ans ε α} {l : Label ι η Ans ε} {ls : List (Label ι η Ans ε)} :
      Step body settles env L l L' → Runs L' ls L'' → Runs L (l :: ls) L''

end Semantics

variable {body : ι → Async σ Ans ε α} {settles : σ → (q : Q) → Except ε (Ans q) → Prop}
  {env : σ → η → σ → Prop} {C C' : Loop σ ι Ans ε α → Label ι η Ans ε → Prop} {s₀ : σ}
  {L L' : Loop σ ι Ans ε α} {l : Label ι η Ans ε} {S : ι → σ → Spec σ Ans ε α}

/-- A run that meets a condition meets a weaker one. -/
theorem Reachable.mono (hL : Reachable body settles env C s₀ L) (hC : ∀ L l, C L l → C' L l) :
    Reachable body settles env C' s₀ L := by
  induction hL with
  | start => exact .start
  | step _ hl hstep ih => exact ih.step (hC _ _ hl) hstep

/-- What is left of every activation satisfies the specification of its job. -/
def Coherent (settles : σ → (q : Q) → Except ε (Ans q) → Prop) (S : ι → σ → Spec σ Ans ε α)
    (L : Loop σ ι Ans ε α) : Prop :=
  ∀ act ∈ L.acts, act.pause.Sat settles (S act.job act.called) act.past

/-- A step keeps every activation to its contract. -/
theorem coherent_step (hbody : ∀ j s, (body j).Sat settles (S j s) [] s s)
    (hL : Coherent settles S L) (hstep : Step body settles env L l L') :
    Coherent settles S L' := by
  cases hstep with
  | call j =>
    intro act hact
    rcases List.mem_append.mp hact with hact | hact
    · exact hL act hact
    · obtain rfl := List.mem_singleton.mp hact
      exact (hbody j L.shared).run.2
  | resume i a hwait ha =>
    intro act hact
    rcases List.mem_or_eq_of_mem_set hact with hact | rfl
    · exact hL act hact
    · -- the rest of the one that is answered satisfies the specification at the longer past
      have hsat := hL _ (List.mem_of_getElem? hwait)
      exact (hsat a L.shared ha).run.2
  | env e he => exact hL

/-- Every reachable loop is coherent. -/
theorem Reachable.coherent (hbody : ∀ j s, (body j).Sat settles (S j s) [] s s)
    (hL : Reachable body settles env C s₀ L) : Coherent settles S L := by
  induction hL with
  | start => exact fun act hact => absurd hact List.not_mem_nil
  | step _ _ hstep ih => exact coherent_step hbody ih hstep

/-- What a step from a reachable loop does to the shared state: it is a segment that the
specification of some job admits, or an event of the environment. -/
theorem Reachable.segment (hbody : ∀ j s, (body j).Sat settles (S j s) [] s s)
    (hL : Reachable body settles env C s₀ L) (h : Step body settles env L l L') :
    ((∀ e, l ≠ .env e) ∧ ∃ j c a, ∃ p : Pause σ Ans ε α, p.Admits (S j c) a L.shared L'.shared) ∨
      ∃ e, l = .env e ∧ env L.shared e L'.shared := by
  cases h with
  | call j => exact .inl ⟨nofun, j, L.shared, [], _, (hbody j L.shared).run.1⟩
  | @resume i j c h q k a hwait ha =>
    have hsat := hL.coherent hbody _ (List.mem_of_getElem? hwait)
    exact .inl ⟨nofun, j, c, ⟨q, a⟩ :: h, _, (hsat a L.shared ha).run.1⟩
  | env e he => exact .inr ⟨e, rfl, he⟩

/-- The induction rule for runs: an invariant holds in every loop that a run reaches whose steps
meet `C` when it holds at the start, each segment the specifications admit keeps it, be it the
first of a call or one that follows an answer, and so does the environment. -/
theorem Reachable.invariant {I : Loop σ ι Ans ε α → Prop}
    (hbody : ∀ j s, (body j).Sat settles (S j s) [] s s) (hstart : I (.start s₀))
    (hcall : ∀ (L : Loop σ ι Ans ε α) j s p, I L → C L (.call j) →
      (body j).run L.shared = (s, p) → p.Admits (S j L.shared) [] L.shared s →
      I { shared := s, acts := L.acts ++ [⟨j, L.shared, [], p⟩] })
    (hresume : ∀ (L : Loop σ ι Ans ε α) i j c h q k a s p, I L → C L (.resume i ⟨q, a⟩) →
      L.acts[i]? = some ⟨j, c, h, .waiting q k⟩ → settles L.shared q a →
      (k a).run L.shared = (s, p) → p.Admits (S j c) (⟨q, a⟩ :: h) L.shared s →
      I { shared := s, acts := L.acts.set i ⟨j, c, ⟨q, a⟩ :: h, p⟩ })
    (henv : ∀ (L : Loop σ ι Ans ε α) e s, I L → C L (.env e) → env L.shared e s →
      I { L with shared := s })
    (hL : Reachable body settles env C s₀ L) : I L := by
  induction hL with
  | start => exact hstart
  | @step L L' l hreach hl hstep ih =>
    cases hstep with
    | call j => exact hcall L j _ _ ih hl rfl (hbody j L.shared).run.1
    | @resume _ j c h q _ a hwait ha =>
      -- what is left of an activation is coherent with its past, so its next segment is admitted
      have hsat := hreach.coherent hbody _ (List.mem_of_getElem? hwait)
      exact hresume L _ j c h q _ a _ _ ih hl hwait ha rfl (hsat a L.shared ha).run.1
    | env e he => exact henv L e _ ih hl he

/-- The induction rule for runs in which a function is called only when none was called before: `J`
is kept as long as there is no activation, and `I` by the one there is. -/
theorem Reachable.alone {J : σ → Prop}
    {I : ι → σ → List (Answered Ans ε) → Pause σ Ans ε α → σ → Prop}
    (hbody : ∀ j s, (body j).Sat settles (S j s) [] s s)
    (hC : ∀ (L : Loop σ ι Ans ε α) j, C L (.call j) → L.acts = []) (hstart : J s₀)
    (hcall : ∀ (L : Loop σ ι Ans ε α) j s p, J L.shared → C L (.call j) →
      p.Admits (S j L.shared) [] L.shared s → I j L.shared [] p s)
    (hresume : ∀ j c h q k a s s' p, I j c h (.waiting q k) s →
      p.Admits (S j c) (⟨q, a⟩ :: h) s s' → I j c (⟨q, a⟩ :: h) p s')
    (hidle : ∀ (L : Loop σ ι Ans ε α) e s, J L.shared → C L (.env e) → env L.shared e s → J s)
    (henv : ∀ (L : Loop σ ι Ans ε α) e s j c h p, I j c h p L.shared → C L (.env e) →
      env L.shared e s → I j c h p s)
    (hL : Reachable body settles env C s₀ L) :
    (L.acts = [] ∧ J L.shared) ∨
      ∃ act, L.acts = [act] ∧ I act.job act.called act.past act.pause L.shared := by
  refine Reachable.invariant (I := fun L => (L.acts = [] ∧ J L.shared) ∨
    ∃ act, L.acts = [act] ∧ I act.job act.called act.past act.pause L.shared) hbody
    (.inl ⟨rfl, hstart⟩) ?_ ?_ ?_ hL
  · intro L j s p hI hl _ hp
    have hnone := hC L j hl
    rcases hI with ⟨-, hJ⟩ | ⟨act, hact, -⟩
    · exact .inr ⟨_, by rw [hnone]; rfl, hcall L j s p hJ hl hp⟩
    · rw [hnone] at hact
      cases hact
  · intro L i j c h q k a s p hI _ hwait _ _ hp
    rcases hI with ⟨hnone, -⟩ | ⟨act, hact, hI⟩
    · rw [hnone] at hwait
      cases hwait
    · -- it is the one activation that is answered
      rw [hact] at hwait
      obtain ⟨rfl, rfl⟩ : i = 0 ∧ act = ⟨j, c, h, .waiting q k⟩ := by
        cases i with
        | zero => exact ⟨rfl, Option.some.inj hwait⟩
        | succ i => cases hwait
      exact .inr ⟨⟨j, c, ⟨q, a⟩ :: h, p⟩, by rw [hact]; rfl, hresume j c h q k a _ s p hI hp⟩
  · intro L e s hI hl he
    rcases hI with ⟨hnone, hJ⟩ | ⟨act, hact, hI⟩
    · exact .inl ⟨hnone, hidle L e s hJ hl he⟩
    · exact .inr ⟨act, hact, henv L e s _ _ _ _ hI hl he⟩

/-! ## Going on from a loop -/

/-- Any steps lead from a reachable loop to a reachable one. -/
theorem Reachable.runs {ls : List (Label ι η Ans ε)}
    (hL : Reachable body settles env (fun _ _ => True) s₀ L) (h : Runs body settles env L ls L') :
    Reachable body settles env (fun _ _ => True) s₀ L' := by
  induction h with
  | nil => exact hL
  | cons hstep _ ih => exact ih (hL.step trivial hstep)

/-- An activation over one step: it stays as it is, or it was the one that was answered. -/
theorem Step.act {i : ℕ} {act : Act σ ι Ans ε α} (h : Step body settles env L l L')
    (hact : L.acts[i]? = some act) :
    L'.acts[i]? = some act ∨ ∃ q a k p, act.pause = .waiting q k ∧
      L'.acts[i]? = some ⟨act.job, act.called, ⟨q, a⟩ :: act.past, p⟩ := by
  obtain ⟨hlt, -⟩ := List.getElem?_eq_some_iff.mp hact
  cases h with
  | call j => exact .inl (by rw [List.getElem?_append_left hlt, hact])
  | @resume i' j c h q k a hwait ha =>
    -- an answer resumes one activation, and the others stay as they are
    by_cases hi : i' = i
    · subst hi
      rw [hact, Option.some.injEq] at hwait
      subst hwait
      exact .inr ⟨q, a, k, _, rfl, List.getElem?_set_self hlt⟩
    · exact .inl (by rw [List.getElem?_set_ne hi, hact])
  | env e he => exact .inl hact

/-- What an activation was answered, it stays answered. -/
theorem Runs.answered {ls : List (Label ι η Ans ε)} {i : ℕ} {act : Act σ ι Ans ε α}
    {x : Answered Ans ε} (h : Runs body settles env L ls L') (hact : L.acts[i]? = some act)
    (hx : x ∈ act.past) : ∃ act', L'.acts[i]? = some act' ∧ x ∈ act'.past := by
  induction h generalizing act with
  | nil => exact ⟨act, hact, hx⟩
  | cons hstep _ ih =>
    rcases hstep.act hact with hact' | ⟨q, a, k, p, -, hact'⟩
    · exact ih hact' hx
    · exact ih hact' (List.mem_cons_of_mem _ hx)

/-- An activation that awaits something still does, or it was answered. -/
theorem Runs.waiting {ls : List (Label ι η Ans ε)} {i : ℕ} {act : Act σ ι Ans ε α} {q : Q}
    {k : Except ε (Ans q) → Async σ Ans ε α} (h : Runs body settles env L ls L')
    (hact : L.acts[i]? = some act) (hwait : act.pause = .waiting q k) :
    ∃ act', L'.acts[i]? = some act' ∧
      (act'.pause = .waiting q k ∨ ∃ a, (⟨q, a⟩ : Answered Ans ε) ∈ act'.past) := by
  induction h with
  | nil => exact ⟨act, hact, .inl hwait⟩
  | cons hstep hruns ih =>
    rcases hstep.act hact with hact' | ⟨q', a, k', p, hwait', hact'⟩
    · exact ih hact'
    · -- it is answered in this step, and stays so in the rest
      rw [hwait] at hwait'
      cases hwait'
      obtain ⟨act', hget, hmem⟩ := hruns.answered hact' List.mem_cons_self
      exact ⟨act', hget, .inr ⟨a, hmem⟩⟩

/-! ## Playing a run -/

namespace Loop

/-- The loop after a call. -/
def called (body : ι → Async σ Ans ε α) (L : Loop σ ι Ans ε α) (j : ι) : Loop σ ι Ans ε α :=
  { shared := ((body j).run L.shared).1,
    acts := L.acts ++ [⟨j, L.shared, [], ((body j).run L.shared).2⟩] }

/-- The loop after the `i`-th activation was answered by what `f` says about its question. -/
def answered (L : Loop σ ι Ans ε α) (i : ℕ) (f : (q : Q) → Except ε (Ans q)) : Loop σ ι Ans ε α :=
  match L.acts[i]? with
  | some ⟨j, c, h, .waiting q k⟩ =>
    { shared := ((k (f q)).run L.shared).1,
      acts := L.acts.set i ⟨j, c, ⟨q, f q⟩ :: h, ((k (f q)).run L.shared).2⟩ }
  | _ => L

/-- What the `i`-th activation waits for. -/
def question (L : Loop σ ι Ans ε α) (i : ℕ) : Option Q :=
  match L.acts[i]? with
  | some ⟨_, _, _, .waiting q _⟩ => some q
  | _ => none

theorem question_eq (L : Loop σ ι Ans ε α) (i : ℕ) :
    L.question i = L.acts[i]?.bind fun act => act.pause.asks := by
  unfold question
  split
  · next hact => rw [hact]; rfl
  · next hact =>
    cases h : L.acts[i]? with
    | none => rfl
    | some act =>
      obtain ⟨j, c, past, pause⟩ := act
      cases pause with
      | settled r => rfl
      | waiting q k => exact absurd h (hact _ _ _ _ _)

end Loop

/-- A job may be called. -/
theorem Reachable.called (hL : Reachable body settles env C s₀ L) (j : ι) (hC : C L (.call j)) :
    Reachable body settles env C s₀ (L.called body j) :=
  hL.step hC (.call L j)

/-- An activation may go on when its answer is there. -/
theorem Reachable.answered (hL : Reachable body settles env C s₀ L) (i : ℕ)
    (f : (q : Q) → Except ε (Ans q)) {q : Q} (hq : L.question i = some q)
    (ha : settles L.shared q (f q)) (hC : C L (.resume i ⟨q, f q⟩)) :
    Reachable body settles env C s₀ (L.answered i f) := by
  unfold Loop.question at hq
  unfold Loop.answered
  split at hq
  · next hact =>
    obtain rfl := Option.some.inj hq
    exact hL.step hC (.resume L i (f _) hact ha)
  · cases hq

theorem Reachable.happened (hL : Reachable body settles env C s₀ L) (e : η) {s : σ}
    (he : env L.shared e s) (hC : C L (.env e)) :
    Reachable body settles env C s₀ { L with shared := s } :=
  hL.step hC (.env L e he)

end EventLoop
