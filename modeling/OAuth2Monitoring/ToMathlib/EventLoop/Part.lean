import OAuth2Monitoring.ToMathlib.EventLoop.Loop

/-!
# Asynchronous functions over a part of the state

Functions that share a part of a larger state can run beside others that share all of it. Seen from
the part, such a run is one of the functions alone: what the others do to it in a segment are
events of its environment.

## Main definitions

* `Part`: a part of a state, read by `get` and replaced by `put`.
* `Async.within`: a function over the part, run over the whole state.
* `Embeds`: the activations of the part among all activations.

## Main results

* `Reachable.part`: every run is a run of the part.
* `Async.Sat.within`: what a function over the part satisfies.
-/

namespace EventLoop

/-- A part of a state. -/
structure Part (τ σ : Type) where
  get : τ → σ
  put : σ → τ → τ
  get_put : ∀ s t, get (put s t) = s
  put_put : ∀ s s' t, put s (put s' t) = put s t
  put_get : ∀ t, put (get t) t = t

variable {τ σ ι κ η θ Q Q' ε α β : Type} {Ans : Q → Type} {Ans' : Q' → Type}

/-! ## Functions over a part -/

namespace Async

/-- A function over the part. What it awaits and returns stands on the left. -/
def within (P : Part τ σ) : Async σ Ans ε α → Async τ (Sum.elim Ans Ans') ε (α ⊕ β)
  | ret r => ret (r.map .inl)
  | get k => get fun t => (k (P.get t)).within P
  | set s u => get fun t => set (P.put s t) (u.within P)
  | await q k => await (.inl q) fun a => (k a).within P

end Async

/-- The same of the place where a segment ends, of an answer, and of an activation. -/
def Pause.within (P : Part τ σ) :
    Pause σ Ans ε α → Pause τ (Sum.elim Ans Ans') ε (α ⊕ β)
  | settled r => .settled (r.map .inl)
  | waiting q k => .waiting (.inl q) fun a => (k a).within P

/-- An answer, as one of the whole. -/
def Answered.within (x : Answered Ans ε) : Answered (Sum.elim Ans Ans') ε :=
  ⟨.inl x.asked, x.answer⟩

/-- An activation, as one of the whole. -/
def Act.within (P : Part τ σ) (act : Act σ ι Ans ε α) (called : τ) :
    Act τ (ι ⊕ κ) (Sum.elim Ans Ans') ε (α ⊕ β) where
  job := .inl act.job
  called := called
  past := act.past.map Answered.within
  pause := act.pause.within P

/-- A segment changes the part as it does alone, and nothing else. -/
theorem Async.run_within (P : Part τ σ) (u : Async σ Ans ε α) (t : τ) :
    (u.within P : Async τ (Sum.elim Ans Ans') ε (α ⊕ β)).run t =
      (P.put (u.run (P.get t)).1 t, (u.run (P.get t)).2.within P) := by
  induction u generalizing t with
  | ret r => exact Prod.ext (P.put_get t).symm rfl
  | get k ih => exact ih (P.get t) t
  | set s u ih =>
    refine (ih (P.put s t)).trans ?_
    rw [P.get_put, P.put_put]
    rfl
  | await q k => exact Prod.ext (P.put_get t).symm rfl

/-- A specification over the part: the segment changes nothing else. -/
def Spec.within (P : Part τ σ) (S : Spec σ Ans ε α) :
    Spec τ (Sum.elim Ans Ans') ε (α ⊕ β) where
  wait h t₀ t q := t = P.put (P.get t) t₀ ∧ ∃ h₀ q₀, h = h₀.map Answered.within ∧ q = .inl q₀ ∧
    S.wait h₀ (P.get t₀) (P.get t) q₀
  done h t₀ t r := t = P.put (P.get t) t₀ ∧ ∃ h₀ r₀, h = h₀.map Answered.within ∧
    r = r₀.map .inl ∧ S.done h₀ (P.get t₀) (P.get t) r₀

/-- A function over the part satisfies its specification when the answers are those of the part. -/
theorem Async.Sat.within {P : Part τ σ} {settles : σ → (q : Q) → Except ε (Ans q) → Prop}
    {settles' : τ → (q : Q ⊕ Q') → Except ε (Sum.elim Ans Ans' q) → Prop} {S : Spec σ Ans ε α}
    {u : Async σ Ans ε α} {h : List (Answered Ans ε)} {t₀ t : τ}
    (hsettles : ∀ t (q : Q) a, settles' t (.inl q) a → settles (P.get t) q a)
    (hu : u.Sat settles S h (P.get t₀) (P.get t)) (ht : t = P.put (P.get t) t₀) :
    (u.within P : Async τ (Sum.elim Ans Ans') ε (α ⊕ β)).Sat settles' (S.within P)
      (h.map Answered.within) t₀ t := by
  induction u generalizing h t₀ t with
  | ret r => exact ⟨ht, h, r, rfl, rfl, hu⟩
  | get k ih => exact ih (P.get t) hu ht
  | set s u ih =>
    refine @ih h t₀ (P.put s t) ?_ ?_
    · rw [P.get_put]
      exact hu
    · rw [P.get_put, ht, P.put_put]
  | await q k ih =>
    refine ⟨⟨ht, h, q, rfl, rfl, hu.1⟩, fun a t₁ ha => ?_⟩
    exact ih a (hu.2 a _ (hsettles t₁ q a ha)) (P.put_get t₁).symm

/-! ## The activations of the part -/

/-- The activations of the part, in the order they stand in among all. -/
inductive Embeds (P : Part τ σ) : List (Act σ ι Ans ε α) →
    List (Act τ (ι ⊕ κ) (Sum.elim Ans Ans') ε (α ⊕ β)) → Prop
  | nil : Embeds P [] []
  | own {acts acts'} (act : Act σ ι Ans ε α) (c : τ) (h : Embeds P acts acts') :
      Embeds P (act :: acts) (act.within P c :: acts')
  | other {acts acts'} {x : Act τ (ι ⊕ κ) (Sum.elim Ans Ans') ε (α ⊕ β)} {k : κ}
      (hx : x.job = .inr k) (h : Embeds P acts acts') : Embeds P acts (x :: acts')

section

variable {P : Part τ σ} {acts : List (Act σ ι Ans ε α)}
  {acts' : List (Act τ (ι ⊕ κ) (Sum.elim Ans Ans') ε (α ⊕ β))}
  {x y : Act τ (ι ⊕ κ) (Sum.elim Ans Ans') ε (α ⊕ β)}

/-- A new activation of the part is one of the whole. -/
theorem Embeds.append_own (h : Embeds P acts acts') (act : Act σ ι Ans ε α) (c : τ) :
    Embeds P (acts ++ [act]) (acts' ++ [act.within P c]) := by
  induction h with
  | nil => exact .own act c .nil
  | own act' c' _ ih => exact .own act' c' ih
  | other hx _ ih => exact .other hx ih

/-- A new activation of the others is none of the part. -/
theorem Embeds.append_other (h : Embeds P acts acts') {k : κ} (hx : x.job = .inr k) :
    Embeds P acts (acts' ++ [x]) := by
  induction h with
  | nil => exact .other hx .nil
  | own act c _ ih => exact .own act c ih
  | other hy _ ih => exact .other hy ih

/-- An activation of the part stands somewhere among those of the part, and is replaced there. -/
theorem Embeds.set_own (h : Embeds P acts acts') {i : ℕ} {j : ι} (hi : acts'[i]? = some x)
    (hx : x.job = .inl j) : ∃ i₀ act c, acts[i₀]? = some act ∧ x = act.within P c ∧
      ∀ act₁ c₁, Embeds P (acts.set i₀ act₁) (acts'.set i (act₁.within P c₁)) := by
  induction h generalizing i with
  | nil => cases hi
  | own act c hrest ih =>
    cases i with
    | zero =>
      obtain rfl := Option.some.inj hi
      exact ⟨0, act, c, rfl, rfl, fun act₁ c₁ => .own act₁ c₁ hrest⟩
    | succ i =>
      obtain ⟨i₀, act₀, c₀, hact, hsame, hset⟩ := ih hi
      exact ⟨i₀ + 1, act₀, c₀, hact, hsame, fun act₁ c₁ => .own act c (hset act₁ c₁)⟩
  | other hy hrest ih =>
    cases i with
    | zero =>
      obtain rfl := Option.some.inj hi
      rw [hx] at hy
      cases hy
    | succ i =>
      obtain ⟨i₀, act₀, c₀, hact, hsame, hset⟩ := ih hi
      exact ⟨i₀, act₀, c₀, hact, hsame, fun act₁ c₁ => .other hy (hset act₁ c₁)⟩

/-- Nor does it matter to the part when one of them goes on. -/
theorem Embeds.set_other (h : Embeds P acts acts') {i : ℕ} {k : κ} (hi : acts'[i]? = some x)
    (hx : x.job = .inr k) (hy : y.job = .inr k) : Embeds P acts (acts'.set i y) := by
  induction h generalizing i with
  | nil => cases hi
  | own act c hrest ih =>
    cases i with
    | zero =>
      obtain rfl := Option.some.inj hi
      cases hx
    | succ i => exact .own act c (ih hi)
  | other hz hrest ih =>
    cases i with
    | zero => exact .other hy hrest
    | succ i => exact .other hz (ih hi)

/-- Every activation of the part is one of all. -/
theorem Embeds.mem (h : Embeds P acts acts') (hx : x ∈ acts') {j : ι} (hj : x.job = .inl j) :
    ∃ act ∈ acts, ∃ c, x = act.within P c := by
  obtain ⟨i, hi⟩ := List.mem_iff_getElem?.mp hx
  obtain ⟨i₀, act, c, hact, hsame, -⟩ := h.set_own hi hj
  exact ⟨act, List.mem_of_getElem? hact, c, hsame⟩

end

/-! ## Runs of the part -/

/-- What a step of the others, or of the environment, is for the part: nothing, or an event. -/
def Stutters (P : Part τ σ) (env : σ → η → σ → Prop) (t t' : τ) : Prop :=
  P.get t' = P.get t ∨ ∃ e, env (P.get t) e (P.get t')

section

variable {P : Part τ σ} {body : ι → Async σ Ans ε α}
  {body' : κ → Async τ (Sum.elim Ans Ans') ε (α ⊕ β)}
  {settles : σ → (q : Q) → Except ε (Ans q) → Prop}
  {settles' : τ → (q : Q ⊕ Q') → Except ε (Sum.elim Ans Ans' q) → Prop}
  {env : σ → η → σ → Prop} {env' : τ → θ → τ → Prop}
  {C : Loop τ (ι ⊕ κ) (Sum.elim Ans Ans') ε (α ⊕ β) →
    Label (ι ⊕ κ) θ (Sum.elim Ans Ans') ε → Prop}
  {S : ι ⊕ κ → τ → Spec τ (Sum.elim Ans Ans') ε (α ⊕ β)} {t₀ : τ}
  {L : Loop τ (ι ⊕ κ) (Sum.elim Ans Ans') ε (α ⊕ β)}

/-- What runs beside functions over a part of the state: those, and others. -/
abbrev beside (P : Part τ σ) (body : ι → Async σ Ans ε α)
    (body' : κ → Async τ (Sum.elim Ans Ans') ε (α ⊕ β)) :
    ι ⊕ κ → Async τ (Sum.elim Ans Ans') ε (α ⊕ β) :=
  Sum.elim (fun j => (body j).within P) body'

/-- A step that is none for the part leaves it reachable. -/
theorem Reachable.stutter {s : σ} {acts : List (Act σ ι Ans ε α)} {t t' : τ}
    (hL : Reachable body settles env (fun _ _ => True) s ⟨P.get t, acts⟩)
    (h : Stutters P env t t') :
    Reachable body settles env (fun _ _ => True) s ⟨P.get t', acts⟩ := by
  rcases h with h | ⟨e, he⟩
  · rwa [h]
  · exact hL.happened e he trivial

/-- Seen from a part of the state, every run is a run of the functions over the part. -/
theorem Reachable.part (hbody : ∀ j t, (beside P body body' j).Sat settles' (S j t) [] t t)
    (hsettles : ∀ t (q : Q) a, settles' t (.inl q) a → settles (P.get t) q a)
    (hother : ∀ k c h t t' (p : Pause τ (Sum.elim Ans Ans') ε (α ⊕ β)),
      p.Admits (S (.inr k) c) h t t' → Stutters P env t t')
    (henv : ∀ t e t', env' t e t' → Stutters P env t t')
    (hL : Reachable (beside P body body') settles' env' C t₀ L) :
    ∃ acts, Reachable body settles env (fun _ _ => True) (P.get t₀) ⟨P.get L.shared, acts⟩ ∧
      Embeds P acts L.acts := by
  refine Reachable.invariant (I := fun L => ∃ acts, Reachable body settles env (fun _ _ => True)
    (P.get t₀) ⟨P.get L.shared, acts⟩ ∧ Embeds P acts L.acts) hbody ⟨[], .start, .nil⟩ ?_ ?_ ?_ hL
  · -- a call of one of the functions, or of another
    rintro L (j | k) t p ⟨acts, hreach, hembeds⟩ - hrun hp
    · obtain ⟨rfl, rfl⟩ := Prod.mk.inj ((Async.run_within P (body j) L.shared).symm.trans hrun)
      refine ⟨_, ?_, hembeds.append_own ⟨j, P.get L.shared, [], _⟩ L.shared⟩
      rw [P.get_put]
      exact hreach.called j trivial
    · exact ⟨acts, hreach.stutter (hother k _ _ _ _ p hp), hembeds.append_other rfl⟩
  · rintro L i (j | m) c h q k a t p ⟨acts, hreach, hembeds⟩ - hact ha hrun hp
    · -- it stands among those of the part, and is answered there
      obtain ⟨i₀, act, c₀, hget, hsame, hset⟩ := hembeds.set_own hact rfl
      obtain ⟨j₀, called, past, pause⟩ := act
      cases pause with
      | settled r => cases hsame
      | waiting q₀ k₀ =>
        cases hsame
        obtain ⟨rfl, rfl⟩ := Prod.mk.inj ((Async.run_within P (k₀ a) L.shared).symm.trans hrun)
        refine ⟨_, ?_, hset ⟨j₀, called, ⟨q₀, a⟩ :: past, _⟩ c⟩
        rw [P.get_put]
        have ha₀ : settles (P.get L.shared) q₀ a := hsettles L.shared q₀ a ha
        exact hreach.step trivial (Step.resume (q := q₀) _ i₀ a hget ha₀)
    · exact ⟨acts, hreach.stutter (hother m _ _ _ _ p hp), hembeds.set_other hact rfl rfl⟩
  · rintro L e t ⟨acts, hreach, hembeds⟩ - he
    exact ⟨acts, hreach.stutter (henv _ e _ he), hembeds⟩

end

end EventLoop
