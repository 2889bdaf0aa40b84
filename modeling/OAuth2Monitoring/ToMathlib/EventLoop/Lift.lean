import OAuth2Monitoring.ToMathlib.EventLoop.Part

/-!
# Calls of a component

A function of a larger state that calls functions over a part of it. What is awaited bears the tag
of the call it is awaited for, so that the tag of the question an activation waits with tells how
far it has come.

## Main definitions

* `Async.on`: a function over the part, called under a tag.
* `Async.Asks`: its first segment ends with a question.

## Main results

* `Async.sat_on`, `Async.sat_call`: what the segments of such a call satisfy.
-/

namespace EventLoop

variable {τ σ T Q ε α β : Type} {Ans : Q → Type}

/-- What is awaited under a tag is what is awaited. -/
abbrev Tagged (T : Type) (Ans : Q → Type) (q : T × Q) : Type := Ans q.2

namespace Async

/-- A function over the part, called under the tag. -/
def on (P : Part τ σ) (tag : T) : Async σ Ans ε α → Async τ (Tagged T Ans) ε α
  | ret r => ret r
  | get k => get fun t => (k (P.get t)).on P tag
  | set s u => get fun t => set (P.put s t) (u.on P tag)
  | await q k => await (tag, q) fun a => (k a).on P tag

/-- The first segment ends with a question. -/
def Asks : Async σ Ans ε α → Prop
  | ret _ => False
  | get k => ∀ s, (k s).Asks
  | set _ u => u.Asks
  | await _ _ => True

variable {settles : τ → (q : T × Q) → Except ε (Ans q.2) → Prop} {S : Spec τ (Tagged T Ans) ε α}
  {P : Part τ σ} {tag : T} {h : List (Answered (Tagged T Ans) ε)} {t₀ t : τ}

/-- A call satisfies what is satisfied wherever a segment of it can end: the part may be another
one, and nothing else has changed since the segment began. -/
theorem sat_on (u : Async σ Ans ε α)
    (hwait : ∀ s q, S.wait h t₀ (P.put s t) (tag, q))
    (hdone : ∀ s r, S.done h t₀ (P.put s t) r)
    (hwaits : ∀ h q a t s q', S.wait (⟨(tag, q), a⟩ :: h) t (P.put s t) (tag, q'))
    (hends : ∀ h q a t s r, S.done (⟨(tag, q), a⟩ :: h) t (P.put s t) r) :
    (u.on P tag).Sat settles S h t₀ t := by
  induction u generalizing h t₀ t with
  | ret r =>
    have hend := hdone (P.get t) r
    rwa [P.put_get] at hend
  | get k ih => exact ih (P.get t) hwait hdone
  | set s u ih =>
    refine @ih h t₀ (P.put s t) (fun s' q => ?_) fun s' r => ?_
    · rw [P.put_put]
      exact hwait s' q
    · rw [P.put_put]
      exact hdone s' r
  | await q k ih =>
    have hask := hwait (P.get t) q
    rw [P.put_get] at hask
    exact ⟨hask, fun a t₁ _ => ih a (hwaits h q a t₁) (hends h q a t₁)⟩

/-- A call that asks first, and what follows it: nothing but the part has changed where a segment
ends with a question, and what follows goes on from there. -/
theorem sat_call {u : Async σ Ans ε β} {f : Except ε β → Async τ (Tagged T Ans) ε α} (hu : u.Asks)
    (hwait : ∀ s q, S.wait h t₀ (P.put s t) (tag, q))
    (hwaits : ∀ h q a t s q', S.wait (⟨(tag, q), a⟩ :: h) t (P.put s t) (tag, q'))
    (hends : ∀ h q a t s r, (f r).Sat settles S (⟨(tag, q), a⟩ :: h) t (P.put s t)) :
    ((u.on P tag).andThen f).Sat settles S h t₀ t := by
  induction u generalizing h t₀ t with
  | ret r => exact hu.elim
  | get k ih => exact ih (P.get t) (hu _) hwait
  | set s u ih =>
    refine @ih h t₀ (P.put s t) hu fun s' q => ?_
    rw [P.put_put]
    exact hwait s' q
  | await q k =>
    have hask := hwait (P.get t) q
    rw [P.put_get] at hask
    refine ⟨hask, fun a t₁ _ => Sat.andThen ?_⟩
    exact sat_on (k a) (hwaits h q a t₁) (hends h q a t₁) hwaits hends

/-- The same of a call that is not awaited: the change follows where it asks first. -/
theorem sat_call_unawaited {g : τ → τ} {u : Async σ Ans ε β}
    {f : Except ε β → Async τ (Tagged T Ans) ε α} (hu : u.Asks)
    (hwait : ∀ s q, S.wait h t₀ (g (P.put s t)) (tag, q))
    (hwaits : ∀ h q a t s q', S.wait (⟨(tag, q), a⟩ :: h) t (P.put s t) (tag, q'))
    (hends : ∀ h q a t s r, (f r).Sat settles S (⟨(tag, q), a⟩ :: h) t (P.put s t)) :
    (unawaited g ((u.on P tag).andThen f)).Sat settles S h t₀ t := by
  induction u generalizing h t₀ t with
  | ret r => exact hu.elim
  | get k ih => exact ih (P.get t) (hu _) hwait
  | set s u ih =>
    refine @ih h t₀ (P.put s t) hu fun s' q => ?_
    rw [P.put_put]
    exact hwait s' q
  | await q k =>
    have hask := hwait (P.get t) q
    rw [P.put_get] at hask
    refine ⟨hask, fun a t₁ _ => Sat.andThen ?_⟩
    exact sat_on (k a) (hwaits h q a t₁) (hends h q a t₁) hwaits hends

end Async

end EventLoop
