import OAuth2Monitoring.ToMathlib.Interleaving.Pool
import Mathlib.Data.List.Forall2

/-!
# Simulation of interleaved runs

Two programs are similar when they perform related operations one after the other and, whenever the
answers are related, go on similarly to related values. When the two semantics answer related
operations by related answers in related states, every interleaved run of the one system is matched,
step by step, by a run of the other: the same jobs, in the same order, by the same threads. What a
thread returns is related to what its counterpart returns, so a relation that is equality on the
returned values says that nothing the relations forget can be told from outside.

## Main definitions

* `Prog.Similar R E Q p p'`: the programs `p` and `p'` are similar; `R` relates operations, `E`
  events and `Q` returned values.
* `Simulates`: the second semantics answers what the first one does.
* `Pool.Similar`: two pools with similar threads, related shared states and related traces.

## Main results

* `Reachable.simulate`: similar systems have similar reachable pools.
-/

namespace Interleaving

variable {Op : Type} {Res : Op → Type} {σ ι α β : Type}

/-! ## Programs -/

/-- The programs perform operations related by `R`, and answers that make events related by `E`
are followed by similar programs, down to values related by `Q`. -/
inductive Prog.Similar (R : Op → Op → Prop) (E : Event Res → Event Res → Prop) (Q : α → α → Prop) :
    Prog Res α → Prog Res α → Prop
  | ret {a b : α} (h : Q a b) : Similar R E Q (.ret a) (.ret b)
  | call {op op' : Op} {k : Res op → Prog Res α} {k' : Res op' → Prog Res α} (hop : R op op')
      (hk : ∀ res res', E ⟨op, res⟩ ⟨op', res'⟩ → Similar R E Q (k res) (k' res')) :
      Similar R E Q (.call op k) (.call op' k')

namespace Prog

variable {R : Op → Op → Prop} {E : Event Res → Event Res → Prop} {Q : α → α → Prop}
  {T : β → β → Prop}

/-- Similar programs followed by programs that are similar whenever their arguments are related. -/
theorem Similar.bind {p p' : Prog Res α} {f f' : α → Prog Res β} (hp : Similar R E Q p p')
    (hf : ∀ a b, Q a b → Similar R E T (f a) (f' b)) : Similar R E T (p >>= f) (p' >>= f') := by
  induction hp with
  | ret h => exact hf _ _ h
  | call hop hk ih => exact .call hop fun res res' hev => ih res res' hev

/-- Similar programs stay so for a weaker relation of their results. -/
theorem Similar.mono {Q' : α → α → Prop} {p p' : Prog Res α} (hp : Similar R E Q p p')
    (hQ : ∀ a b, Q a b → Q' a b) : Similar R E Q' p p' := by
  induction hp with
  | ret h => exact .ret (hQ _ _ h)
  | call hop hk ih => exact .call hop ih

/-- A program whose operations are related to themselves, with equal answers only, is similar to
itself. -/
theorem Uses.similar {A : Op → Prop} {p : Prog Res α} (hp : p.Uses A)
    (hR : ∀ op, A op → R op op) (hE : ∀ op res res', A op → E ⟨op, res⟩ ⟨op, res'⟩ → res = res') :
    Similar R E Eq p p := by
  induction p with
  | ret a => exact .ret rfl
  | call op k ih =>
    refine .call (hR op hp.1) fun res res' hev => ?_
    obtain rfl := hE op res res' hp.1 hev
    exact ih res (hp.2 res)

end Prog

/-! ## Runs -/

section Runs

variable {exec exec' : σ → (op : Op) → Res op → σ → Prop} {code code' : ι → Prog Res α}
  {env env' : σ → σ → Prop} {R : Op → Op → Prop} {E : Event Res → Event Res → Prop}
  {Q : α → α → Prop} {S : σ → σ → Prop}

/-- In related states a related operation can be answered by a related answer, and the states
reached are related again; so are those the environment leads to. -/
structure Simulates (exec exec' : σ → (op : Op) → Res op → σ → Prop) (env env' : σ → σ → Prop)
    (R : Op → Op → Prop) (E : Event Res → Event Res → Prop) (S : σ → σ → Prop) : Prop where
  exec : ∀ {s s' op op' res t}, S s s' → R op op' → exec s op res t →
    ∃ res' t', exec' s' op' res' t' ∧ E ⟨op, res⟩ ⟨op', res'⟩ ∧ S t t'
  env : ∀ {s s' t}, S s s' → env s t → ∃ t', env' s' t' ∧ S t t'

/-- Two threads of one job with similar programs. -/
structure Thread.Similar (R : Op → Op → Prop) (E : Event Res → Event Res → Prop) (Q : α → α → Prop)
    (th th' : Thread ι Res α) : Prop where
  job : th.job = th'.job
  prog : Prog.Similar R E Q th.prog th'.prog

/-- Two entries of the same thread with related events. -/
structure Entry.Similar (E : Event Res → Event Res → Prop) (e e' : Entry ι Res) : Prop where
  tid : e.tid = e'.tid
  job : e.job = e'.job
  event : E e.event e'.event

/-- Two pools in which the same jobs have come equally far. -/
structure Pool.Similar (R : Op → Op → Prop) (E : Event Res → Event Res → Prop) (Q : α → α → Prop)
    (S : σ → σ → Prop) (P P' : Pool σ ι Res α) : Prop where
  shared : S P.shared P'.shared
  threads : List.Forall₂ (Thread.Similar R E Q) P.threads P'.threads
  trace : List.Forall₂ (Entry.Similar E) P.trace P'.trace

/-- The values two similar pools' threads have returned are related. -/
theorem Pool.Similar.returned {P P' : Pool σ ι Res α} (h : Pool.Similar R E Q S P P') {t : ℕ}
    {j : ι} {a : α} (ht : P.threads[t]? = some ⟨j, .ret a⟩) :
    ∃ b, P'.threads[t]? = some ⟨j, .ret b⟩ ∧ Q a b := by
  obtain ⟨hlt, hget⟩ := List.getElem?_eq_some_iff.mp ht
  have hlt' : t < P'.threads.length := h.threads.length_eq ▸ hlt
  have hsim : Thread.Similar R E Q P.threads[t] P'.threads[t] := h.threads.get hlt hlt'
  rw [hget] at hsim
  obtain ⟨hjob, hprog⟩ := hsim
  generalize hth : P'.threads[t] = th at hjob hprog
  obtain ⟨j', p'⟩ := th
  obtain rfl : j = j' := hjob
  cases hprog with
  | ret hQ => exact ⟨_, List.getElem?_eq_some_iff.mpr ⟨hlt', hth⟩, hQ⟩

/-- Lists that are related stay so when one element is replaced. -/
theorem similar_set {A : Type} {C : A → A → Prop} {l l' : List A} (h : List.Forall₂ C l l') (n : ℕ)
    {a b : A} (hab : C a b) : List.Forall₂ C (l.set n a) (l'.set n b) := by
  induction h generalizing n with
  | nil => exact .nil
  | cons hx hrest ih =>
    cases n with
    | zero => exact .cons hab hrest
    | succ n => exact .cons hx (ih n)

/-- One step is matched by one step. -/
theorem Pool.Similar.step {P P₁ P' : Pool σ ι Res α} (hsim : Simulates exec exec' env env' R E S)
    (hcode : ∀ j, Prog.Similar R E Q (code j) (code' j)) (h : Pool.Similar R E Q S P P')
    (hstep : Step exec code env P P₁) :
    ∃ P₁', Step exec' code' env' P' P₁' ∧ Pool.Similar R E Q S P₁ P₁' := by
  cases hstep with
  | spawn j =>
    refine ⟨_, .spawn P' j, h.shared, ?_, h.trace⟩
    exact List.rel_append h.threads (.cons ⟨rfl, hcode j⟩ .nil)
  | @advance t j op k res s₁ hnext hexec =>
    -- the counterpart of the thread performs a related operation
    obtain ⟨hlt, hget⟩ := List.getElem?_eq_some_iff.mp hnext
    have hlt' : t < P'.threads.length := h.threads.length_eq ▸ hlt
    have hth : Thread.Similar R E Q P.threads[t] P'.threads[t] := h.threads.get hlt hlt'
    rw [hget] at hth
    obtain ⟨hjob, hprog⟩ := hth
    generalize hget' : P'.threads[t] = th' at hjob hprog
    obtain ⟨j', p'⟩ := th'
    obtain rfl : j = j' := hjob
    cases hprog with
    | call hop hk =>
      obtain ⟨res', s₁', hexec', hev, hshared⟩ := hsim.exec h.shared hop hexec
      refine ⟨_, .advance P' t res' (List.getElem?_eq_some_iff.mpr ⟨hlt', hget'⟩) hexec', hshared,
        ?_, .cons ⟨rfl, rfl, hev⟩ h.trace⟩
      exact similar_set h.threads t ⟨rfl, hk res res' hev⟩
  | env henv =>
    obtain ⟨s₁', henv', hshared⟩ := hsim.env h.shared henv
    exact ⟨_, .env P' henv', hshared, h.threads, h.trace⟩

/-- Every run of the first system is matched by a run of the second one. -/
theorem Reachable.simulate {s₀ s₀' : σ} {P : Pool σ ι Res α}
    (hsim : Simulates exec exec' env env' R E S)
    (hcode : ∀ j, Prog.Similar R E Q (code j) (code' j)) (hstart : S s₀ s₀')
    (hP : Reachable exec code env s₀ P) :
    ∃ P', Reachable exec' code' env' s₀' P' ∧ Pool.Similar R E Q S P P' := by
  induction hP with
  | start => exact ⟨_, .start, hstart, .nil, .nil⟩
  | step _ hstep ih =>
    obtain ⟨P', hP', h⟩ := ih
    obtain ⟨P₁', hstep', h₁⟩ := h.step hsim hcode hstep
    exact ⟨P₁', hP'.step hstep', h₁⟩

end Runs

end Interleaving
