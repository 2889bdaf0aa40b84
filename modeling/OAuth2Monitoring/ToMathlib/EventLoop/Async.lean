import Mathlib.Logic.Basic

/-!
# Asynchronous functions over shared state

An activation of an asynchronous function reads and writes the shared state until it awaits
something. Nothing else runs in between. What it awaits is settled later, by a value or by an
error, and the activation goes on from there in the shared state of that time.

`Async.Sat` is a Hoare logic for one activation. Its assertions speak about one segment, the part
of the activation from one await to the next: the shared state the segment began in, the one it
ended in, and everything the activation was answered before.

## Main definitions

* `Async`: what is left of an activation, `Async.run`: its next segment.
* `Async.andThen`: sequencing on the outcome; `bind`, `tryCatch` and `tryFinally` are cases of it.
* `Async.Sat S t h s₀ s`: with past `h`, begun in `s₀` and now in `s`, every segment of `t`
  satisfies the specification `S`.

## Main results

* `Async.Sat.andThen`: the rule of sequencing.
* `Async.Sat.run`: what the next segment does, and that the rest still satisfies the specification.
-/

namespace EventLoop

/-- What is left of an activation: it settles, reads or writes the shared state, or awaits the
answer to `q`, which can be an error. -/
inductive Async (σ : Type) {Q : Type} (Ans : Q → Type) (ε α : Type) : Type
  | ret (r : Except ε α) : Async σ Ans ε α
  | get (k : σ → Async σ Ans ε α) : Async σ Ans ε α
  | set (s : σ) (t : Async σ Ans ε α) : Async σ Ans ε α
  | await (q : Q) (k : Except ε (Ans q) → Async σ Ans ε α) : Async σ Ans ε α

/-- What an activation awaited, with the answer. -/
structure Answered {Q : Type} (Ans : Q → Type) (ε : Type) where
  asked : Q
  answer : Except ε (Ans asked)

/-- Where a segment ends: the activation has settled, or it awaits something. -/
inductive Pause (σ : Type) {Q : Type} (Ans : Q → Type) (ε α : Type) : Type
  | settled (r : Except ε α) : Pause σ Ans ε α
  | waiting (q : Q) (k : Except ε (Ans q) → Async σ Ans ε α) : Pause σ Ans ε α

/-- What an activation may do in one segment, after the past `h`: from the shared state `s₀` to `s`,
and then await `q` or settle with `r`. -/
structure Spec (σ : Type) {Q : Type} (Ans : Q → Type) (ε α : Type) where
  wait : List (Answered Ans ε) → σ → σ → Q → Prop
  done : List (Answered Ans ε) → σ → σ → Except ε α → Prop

/-- The same, the values mapped by `g`. -/
def Spec.map {σ Q ε α β : Type} {Ans : Q → Type} (g : β → α) (S : Spec σ Ans ε β) :
    Spec σ Ans ε α where
  wait := S.wait
  done h s₀ s r := ∃ r', r = r'.map g ∧ S.done h s₀ s r'

/-- What both specifications admit. -/
def Spec.and {σ Q ε α : Type} {Ans : Q → Type} (S S' : Spec σ Ans ε α) : Spec σ Ans ε α where
  wait h s₀ s q := S.wait h s₀ s q ∧ S'.wait h s₀ s q
  done h s₀ s r := S.done h s₀ s r ∧ S'.done h s₀ s r

namespace Async

variable {σ Q ε α β : Type} {Ans : Q → Type}

/-- Run `t`, then `f` on its outcome. -/
def andThen : Async σ Ans ε α → (Except ε α → Async σ Ans ε β) → Async σ Ans ε β
  | ret r, f => f r
  | get k, f => get fun s => (k s).andThen f
  | set s t, f => set s (t.andThen f)
  | await q k, f => await q fun a => (k a).andThen f

/-- Go on with the value; an error ends the activation. -/
def onOk (f : α → Async σ Ans ε β) : Except ε α → Async σ Ans ε β
  | .ok a => f a
  | .error e => ret (.error e)

instance : Monad (Async σ Ans ε) where
  pure a := ret (.ok a)
  bind t f := t.andThen (onOk f)

/-- `throw e`. -/
def throw (e : ε) : Async σ Ans ε α := ret (.error e)

/-- `try { t } catch (e) { handler }`. -/
def tryCatch (t : Async σ Ans ε α) (handler : ε → Async σ Ans ε α) : Async σ Ans ε α :=
  t.andThen fun
    | .ok a => ret (.ok a)
    | .error e => handler e

/-- `try { t } finally { cleanup }`. -/
def tryFinally (t : Async σ Ans ε α) (cleanup : Async σ Ans ε Unit) : Async σ Ans ε α :=
  t.andThen fun r => cleanup.andThen (onOk fun _ => ret r)

/-- `t(); f()` where `t` is not awaited: the state is changed when the first segment of `t` ends, in
the same segment. -/
def unawaited (f : σ → σ) : Async σ Ans ε α → Async σ Ans ε α
  | ret r => get fun s => set (f s) (ret r)
  | get k => get fun s => unawaited f (k s)
  | set s t => set s (unawaited f t)
  | await q k => get fun s => set (f s) (await q k)

/-- The shared state. -/
def read : Async σ Ans ε σ := get fun s => ret (.ok s)

/-- Change the shared state. -/
def modify (f : σ → σ) : Async σ Ans ε Unit := get fun s => set (f s) (ret (.ok ()))

/-- Await the answer to `q`. -/
def ask (q : Q) : Async σ Ans ε (Ans q) := await q ret

@[simp]
theorem pure_eq (a : α) : (pure a : Async σ Ans ε α) = ret (.ok a) := rfl

@[simp]
theorem bind_eq (t : Async σ Ans ε α) (f : α → Async σ Ans ε β) : (t >>= f) = t.andThen (onOk f) :=
  rfl

@[simp]
theorem onOk_ok (f : α → Async σ Ans ε β) (a : α) : onOk f (.ok a) = f a := rfl

@[simp]
theorem onOk_error (f : α → Async σ Ans ε β) (e : ε) : onOk f (.error e) = ret (.error e) := rfl

@[simp]
theorem andThen_ret (r : Except ε α) (f : Except ε α → Async σ Ans ε β) :
    (ret r : Async σ Ans ε α).andThen f = f r := rfl

@[simp]
theorem andThen_get (k : σ → Async σ Ans ε α) (f : Except ε α → Async σ Ans ε β) :
    (get k).andThen f = get fun s => (k s).andThen f := rfl

@[simp]
theorem andThen_set (s : σ) (t : Async σ Ans ε α) (f : Except ε α → Async σ Ans ε β) :
    (set s t).andThen f = set s (t.andThen f) := rfl

@[simp]
theorem andThen_await (q : Q) (k : Except ε (Ans q) → Async σ Ans ε α)
    (f : Except ε α → Async σ Ans ε β) :
    (await q k).andThen f = await q fun a => (k a).andThen f := rfl

/-! ## One segment -/

/-- The next segment, run in the shared state: the shared state it leaves, and where it ends. -/
def run : Async σ Ans ε α → σ → σ × Pause σ Ans ε α
  | ret r, s => (s, .settled r)
  | get k, s => (k s).run s
  | set s t, _ => t.run s
  | await q k, s => (s, .waiting q k)

/-- The whole activation, nothing else running beside it, what it awaits being answered by `f`. -/
def eval (f : (q : Q) → Except ε (Ans q)) : Async σ Ans ε α → σ → σ × Except ε α
  | ret r, s => (s, r)
  | get k, s => (k s).eval f s
  | set s t, _ => t.eval f s
  | await q k, s => (k (f q)).eval f s

/-- It runs its next segment, and what is left of it after the answer. -/
theorem eval_eq_run (f : (q : Q) → Except ε (Ans q)) (t : Async σ Ans ε α) (s : σ) :
    t.eval f s = match t.run s with
      | (s', .settled r) => (s', r)
      | (s', .waiting q k) => (k (f q)).eval f s' := by
  induction t generalizing s with
  | ret r => rfl
  | get k ih => exact ih s s
  | set s' t ih => exact ih s'
  | await q k ih => rfl

/-! ## Specifications -/

section Sat

variable (settles : σ → (q : Q) → Except ε (Ans q) → Prop)

/-- Every segment satisfies `S`. The current one began in `s₀`, with past `h`, and is now in `s`. A
question may be answered as `settles` admits in the shared state of that time. -/
def Sat (S : Spec σ Ans ε α) :
    Async σ Ans ε α → List (Answered Ans ε) → σ → σ → Prop
  | ret r, h, s₀, s => S.done h s₀ s r
  | get k, h, s₀, s => (k s).Sat S h s₀ s
  | set s t, h, s₀, _ => t.Sat S h s₀ s
  | await q k, h, s₀, s =>
    S.wait h s₀ s q ∧ ∀ a s₁, settles s₁ q a → (k a).Sat S (⟨q, a⟩ :: h) s₁ s₁

end Sat

variable {settles : σ → (q : Q) → Except ε (Ans q) → Prop} {S S' : Spec σ Ans ε α}
  {h : List (Answered Ans ε)} {s₀ s : σ}

@[simp]
theorem sat_ret {r : Except ε α} :
    (ret r : Async σ Ans ε α).Sat settles S h s₀ s ↔ S.done h s₀ s r := Iff.rfl

@[simp]
theorem sat_get {k : σ → Async σ Ans ε α} :
    (get k).Sat settles S h s₀ s ↔ (k s).Sat settles S h s₀ s := Iff.rfl

@[simp]
theorem sat_set {s' : σ} {t : Async σ Ans ε α} :
    (set s' t).Sat settles S h s₀ s ↔ t.Sat settles S h s₀ s' := Iff.rfl

@[simp]
theorem sat_await {q : Q} {k : Except ε (Ans q) → Async σ Ans ε α} :
    (await q k).Sat settles S h s₀ s ↔
      S.wait h s₀ s q ∧ ∀ a s₁, settles s₁ q a → (k a).Sat settles S (⟨q, a⟩ :: h) s₁ s₁ := Iff.rfl

/-- A weaker specification is satisfied as well. -/
theorem Sat.mono {t : Async σ Ans ε α} (ht : t.Sat settles S h s₀ s)
    (hwait : ∀ h s₀ s q, S.wait h s₀ s q → S'.wait h s₀ s q)
    (hdone : ∀ h s₀ s r, S.done h s₀ s r → S'.done h s₀ s r) : t.Sat settles S' h s₀ s := by
  induction t generalizing h s₀ s with
  | ret r => exact hdone _ _ _ _ ht
  | get k ih => exact ih s ht
  | set s' t ih => exact ih ht
  | await q k ih => exact ⟨hwait _ _ _ _ ht.1, fun a s₁ ha => ih a (ht.2 a s₁ ha)⟩

/-- Two specifications that are satisfied are so together. -/
theorem Sat.and {t : Async σ Ans ε α} (ht : t.Sat settles S h s₀ s)
    (ht' : t.Sat settles S' h s₀ s) : t.Sat settles (S.and S') h s₀ s := by
  induction t generalizing h s₀ s with
  | ret r => exact ⟨ht, ht'⟩
  | get k ih => exact ih s ht ht'
  | set s' t ih => exact ih ht ht'
  | await q k ih => exact ⟨⟨ht.1, ht'.1⟩, fun a s₁ ha => ih a (ht.2 a s₁ ha) (ht'.2 a s₁ ha)⟩

/-- Sequencing: the continuation goes on in the segment the first one settles in. -/
theorem Sat.andThen {t : Async σ Ans ε β} {f : Except ε β → Async σ Ans ε α}
    (ht : t.Sat settles ⟨S.wait, fun h s₀ s r => (f r).Sat settles S h s₀ s⟩ h s₀ s) :
    (t.andThen f).Sat settles S h s₀ s := by
  induction t generalizing h s₀ s with
  | ret r => exact ht
  | get k ih => exact ih s ht
  | set s' t ih => exact ih ht
  | await q k ih => exact ⟨ht.1, fun a s₁ ha => ih a (ht.2 a s₁ ha)⟩

/-- The whole of `t` runs in one segment. -/
def Instant : Async σ Ans ε α → Prop
  | ret _ => True
  | get k => ∀ s, (k s).Instant
  | set _ t => t.Instant
  | await _ _ => False

/-- A sequence of tasks that await nothing awaits nothing. -/
theorem Instant.andThen {t : Async σ Ans ε β} {f : Except ε β → Async σ Ans ε α} (ht : t.Instant)
    (hf : ∀ r, (f r).Instant) : (t.andThen f).Instant := by
  induction t with
  | ret r => exact hf r
  | get k ih => exact fun s => ih s (ht s)
  | set s t ih => exact ih ht
  | await q k ih => exact ht.elim

theorem Instant.bind {t : Async σ Ans ε β} {f : β → Async σ Ans ε α} (ht : t.Instant)
    (hf : ∀ b, (f b).Instant) : (t >>= f).Instant := by
  refine ht.andThen fun r => ?_
  cases r with
  | ok b => exact hf b
  | error e => trivial

/-- Where every end of the segment is admitted, what runs in one segment satisfies `S`. -/
theorem Instant.sat {t : Async σ Ans ε α} (ht : t.Instant) (hdone : ∀ s r, S.done h s₀ s r) :
    t.Sat settles S h s₀ s := by
  induction t generalizing s with
  | ret r => exact hdone s r
  | get k ih => exact ih s (ht s)
  | set s' t ih => exact ih ht
  | await q k ih => exact ht.elim

/-- The values a task gives, mapped. -/
theorem Sat.map {S : Spec σ Ans ε β} {t : Async σ Ans ε β} (g : β → α)
    (ht : t.Sat settles S h s₀ s) : (g <$> t).Sat settles (S.map g) h s₀ s := by
  refine Sat.andThen (ht.mono (fun _ _ _ _ hw => hw) fun h s₀ s r hr => ?_)
  cases r with
  | ok b => exact ⟨.ok b, rfl, hr⟩
  | error e => exact ⟨.error e, rfl, hr⟩

end Async

namespace Pause

variable {σ Q ε α : Type} {Ans : Q → Type}
  (settles : σ → (q : Q) → Except ε (Ans q) → Prop)

/-- Whatever the answer, what is left satisfies `S`. -/
def Sat (S : Spec σ Ans ε α) (h : List (Answered Ans ε)) : Pause σ Ans ε α → Prop
  | settled _ => True
  | waiting q k => ∀ a s, settles s q a → (k a).Sat settles S (⟨q, a⟩ :: h) s s

/-- A segment from `s₀` to `s` that ends like this is one `S` admits. -/
def Admits (S : Spec σ Ans ε α) (h : List (Answered Ans ε)) (s₀ s : σ) : Pause σ Ans ε α → Prop
  | settled r => S.done h s₀ s r
  | waiting q _ => S.wait h s₀ s q

/-- The activation has not settled. -/
def Waits : Pause σ Ans ε α → Prop
  | settled _ => False
  | waiting _ _ => True

/-- What the activation awaits. -/
def asks : Pause σ Ans ε α → Option Q
  | settled _ => none
  | waiting q _ => some q

instance (p : Pause σ Ans ε α) : Decidable p.Waits :=
  match p with
  | settled _ => .isFalse id
  | waiting _ _ => .isTrue trivial

@[simp]
theorem waits_settled {r : Except ε α} : ¬(settled r : Pause σ Ans ε α).Waits := id

@[simp]
theorem waits_waiting {q : Q} {k : Except ε (Ans q) → Async σ Ans ε α} : (waiting q k).Waits :=
  trivial

end Pause

namespace Async

variable {σ Q ε α : Type} {Ans : Q → Type}
  {settles : σ → (q : Q) → Except ε (Ans q) → Prop} {S : Spec σ Ans ε α}
  {h : List (Answered Ans ε)} {s₀ s : σ}

/-- The next segment does what the specification says, and what is left satisfies it. -/
theorem Sat.run {t : Async σ Ans ε α} (ht : t.Sat settles S h s₀ s) :
    (t.run s).2.Admits S h s₀ (t.run s).1 ∧ (t.run s).2.Sat settles S h := by
  induction t generalizing s with
  | ret r => exact ⟨ht, trivial⟩
  | get k ih => exact ih s ht
  | set s' t ih => exact ih ht
  | await q k ih => exact ht

end Async

end EventLoop
