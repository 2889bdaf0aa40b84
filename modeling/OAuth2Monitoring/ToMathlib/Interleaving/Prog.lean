import Mathlib.Logic.Basic

/-!
# Programs over atomic operations

A program is a tree: it returns, or performs one atomic operation and continues with the answer.
Nothing here says what the operations do to a shared state; that is the business of
`Interleaving.Pool`. What can be said about one program alone is said by `Prog.Sat`, a Hoare logic
whose assertions speak about the program's own past: the list of the operations it has performed
so far with the answers it got, newest first.

## Main definitions

* `Prog Res α`: programs whose operation `op` is answered by a value of `Res op`.
* `Prog.Sat Φ Ψ p h`: with past `h`, every operation `p` goes on to perform satisfies `Φ` at the
  past it is performed at, and every value it returns satisfies `Ψ` at the whole past.
* `Prog.Uses A p`: every operation `p` may perform satisfies `A`.
* `Prog.Yields p l a`: `p` can perform the events `l` and return `a`.
* `Prog.Exec`: a program run by itself for a while, nothing interfering.
-/

namespace Interleaving

/-- A program that performs atomic operations `op`, each answered by a value of `Res op`. -/
inductive Prog {Op : Type} (Res : Op → Type) (α : Type) : Type
  | ret (a : α) : Prog Res α
  | call (op : Op) (k : Res op → Prog Res α) : Prog Res α

/-- An operation together with its answer. -/
structure Event {Op : Type} (Res : Op → Type) where
  op : Op
  res : Res op

namespace Prog

variable {Op : Type} {Res : Op → Type} {α β : Type}

/-- Run `p`, then `f` on what it returns. -/
def bind : Prog Res α → (α → Prog Res β) → Prog Res β
  | ret a, f => f a
  | call op k, f => call op fun res => (k res).bind f

instance : Monad (Prog Res) where
  pure := ret
  bind := bind

/-- The program that performs `op` and returns the answer. -/
def perform (op : Op) : Prog Res (Res op) := call op ret

@[simp]
theorem pure_eq (a : α) : (pure a : Prog Res α) = ret a := rfl

@[simp]
theorem ret_bind (a : α) (f : α → Prog Res β) : (ret a >>= f) = f a := rfl

@[simp]
theorem call_bind (op : Op) (k : Res op → Prog Res α) (f : α → Prog Res β) :
    (call op k >>= f) = call op fun res => k res >>= f := rfl

@[simp]
theorem perform_bind (op : Op) (f : Res op → Prog Res β) : (perform op >>= f) = call op f := rfl

theorem bind_assoc {γ : Type} (p : Prog Res α) (f : α → Prog Res β) (g : β → Prog Res γ) :
    (p >>= f >>= g) = (p >>= fun a => f a >>= g) := by
  induction p with
  | ret a => rfl
  | call op k ih =>
    simp only [call_bind]
    congr 1
    funext res
    exact ih res

/-! ## Assertions about a program's own past -/

/-- With past `h` (newest first), each operation the program performs satisfies `Φ` at the past it
is performed at, and each value it returns satisfies `Ψ`. -/
def Sat (Φ : List (Event Res) → Op → Prop) (Ψ : List (Event Res) → α → Prop) :
    Prog Res α → List (Event Res) → Prop
  | ret a, h => Ψ h a
  | call op k, h => Φ h op ∧ ∀ res, (k res).Sat Φ Ψ (⟨op, res⟩ :: h)

variable {Φ Φ' : List (Event Res) → Op → Prop} {Ψ Ψ' : List (Event Res) → α → Prop}
  {h h' : List (Event Res)}

@[simp]
theorem sat_ret {a : α} : (ret a : Prog Res α).Sat Φ Ψ h ↔ Ψ h a := Iff.rfl

@[simp]
theorem sat_call {op : Op} {k : Res op → Prog Res α} :
    (call op k).Sat Φ Ψ h ↔ Φ h op ∧ ∀ res, (k res).Sat Φ Ψ (⟨op, res⟩ :: h) := Iff.rfl

/-- Every program satisfies the trivial specification. -/
theorem sat_true (p : Prog Res α) (h : List (Event Res)) :
    p.Sat (fun _ _ => True) (fun _ _ => True) h := by
  induction p generalizing h with
  | ret a => trivial
  | call op k ih => exact ⟨trivial, fun res => ih res _⟩

/-- An assertion about every longer past is satisfied by every program. -/
theorem sat_of_forall (p : Prog Res α) (hΦ : ∀ l op, Φ (l ++ h) op) :
    p.Sat Φ (fun h' _ => ∃ l, h' = l ++ h) h := by
  -- generalised over what the program has added to the past so far
  have hgen : ∀ l, p.Sat Φ (fun h' _ => ∃ l, h' = l ++ h) (l ++ h) := by
    induction p with
    | ret a => exact fun l => ⟨l, rfl⟩
    | call op k ih => exact fun l => ⟨hΦ l op, fun res => ih res (⟨op, res⟩ :: l)⟩
  exact hgen []

/-- Weaker assertions are satisfied as well. -/
theorem Sat.mono {p : Prog Res α} (hp : p.Sat Φ Ψ h) (hΦ : ∀ h op, Φ h op → Φ' h op)
    (hΨ : ∀ h a, Ψ h a → Ψ' h a) : p.Sat Φ' Ψ' h := by
  induction p generalizing h with
  | ret a => exact hΨ _ _ hp
  | call op k ih => exact ⟨hΦ _ _ hp.1, fun res => ih res (hp.2 res)⟩

/-- Sequencing: the continuation starts in the past the first program ends with. -/
theorem Sat.bind {p : Prog Res α} {f : α → Prog Res β} {Ω : List (Event Res) → β → Prop}
    (hp : p.Sat Φ (fun h a => (f a).Sat Φ Ω h) h) : (p >>= f).Sat Φ Ω h := by
  induction p generalizing h with
  | ret a => exact hp
  | call op k ih => exact ⟨hp.1, fun res => ih res (hp.2 res)⟩

/-- Two specifications of one program hold together. -/
theorem Sat.and {p : Prog Res α} (hp : p.Sat Φ Ψ h) (hp' : p.Sat Φ' Ψ' h) :
    p.Sat (fun h op => Φ h op ∧ Φ' h op) (fun h a => Ψ h a ∧ Ψ' h a) h := by
  induction p generalizing h with
  | ret a => exact ⟨hp, hp'⟩
  | call op k ih => exact ⟨⟨hp.1, hp'.1⟩, fun res => ih res (hp.2 res) (hp'.2 res)⟩

/-! ## What a program uses, and what it yields -/

/-- Every operation the program may perform satisfies `A`. -/
def Uses (A : Op → Prop) : Prog Res α → Prop
  | ret _ => True
  | call op k => A op ∧ ∀ res, (k res).Uses A

@[simp]
theorem uses_ret {A : Op → Prop} {a : α} : (ret a : Prog Res α).Uses A := trivial

@[simp]
theorem uses_call {A : Op → Prop} {op : Op} {k : Res op → Prog Res α} :
    (call op k).Uses A ↔ A op ∧ ∀ res, (k res).Uses A := Iff.rfl

/-- What a sequence performs is performed by its parts. -/
theorem Uses.bind {A : Op → Prop} {p : Prog Res α} {f : α → Prog Res β} (hp : p.Uses A)
    (hf : ∀ a, (f a).Uses A) : (p >>= f).Uses A := by
  induction p with
  | ret a => exact hf a
  | call op k ih => exact ⟨hp.1, fun res => ih res (hp.2 res)⟩

theorem Uses.mono {A B : Op → Prop} {p : Prog Res α} (hp : p.Uses A) (h : ∀ op, A op → B op) :
    p.Uses B := by
  induction p with
  | ret a => trivial
  | call op k ih => exact ⟨h _ hp.1, fun res => ih res (hp.2 res)⟩

/-- A bound on the operations is a specification that ignores the past. -/
theorem Uses.sat {A : Op → Prop} {p : Prog Res α} (hp : p.Uses A)
    (h : ∀ h op, A op → Φ h op) : p.Sat Φ (fun _ _ => True) h' := by
  induction p generalizing h' with
  | ret a => trivial
  | call op k ih => exact ⟨h _ _ hp.1, fun res => ih res (hp.2 res)⟩

/-- A contract that only constrains the operations. -/
theorem Sat.uses {A : Op → Prop} {p : Prog Res α} (hp : p.Sat (fun _ op => A op) Ψ h) :
    p.Uses A := by
  induction p generalizing h with
  | ret a => trivial
  | call op k ih => exact ⟨hp.1, fun res => ih res (hp.2 res)⟩

/-- The program can perform the events of the list, oldest first, and return `a`. -/
inductive Yields : Prog Res α → List (Event Res) → α → Prop
  | ret (a : α) : Yields (ret a) [] a
  | call {op : Op} {k : Res op → Prog Res α} (res : Res op) {l : List (Event Res)} {a : α}
      (htail : Yields (k res) l a) : Yields (call op k) (⟨op, res⟩ :: l) a

/-- When a program returns, its past ends with events it yields the value by. -/
theorem Sat.yields {p : Prog Res α} (hp : p.Sat Φ Ψ h) :
    p.Sat Φ (fun h' a => Ψ h' a ∧ ∃ l, p.Yields l a ∧ h' = l.reverse ++ h) h := by
  induction p generalizing h with
  | ret a => exact ⟨hp, [], .ret a, rfl⟩
  | call op k ih =>
    refine ⟨hp.1, fun res => (ih res (hp.2 res)).mono (fun _ _ hop => hop) ?_⟩
    rintro h' a ⟨hΨ, l, hl, rfl⟩
    exact ⟨hΨ, ⟨op, res⟩ :: l, .call res hl, by simp⟩

/-- The values a program yields satisfy its specification. -/
theorem Yields.sat {p : Prog Res α} {l : List (Event Res)} {a : α} (hl : p.Yields l a)
    (hp : p.Sat Φ Ψ h) : Ψ (l.reverse ++ h) a := by
  induction hl generalizing h with
  | ret a => exact hp
  | call res htail ih => simpa using ih (hp.2 res)

/-- The events of a run are operations the program keeps to. -/
theorem Yields.of_uses {A : Op → Prop} {p : Prog Res α} {l : List (Event Res)} {a : α}
    (h : p.Yields l a) (hp : p.Uses A) : ∀ ev ∈ l, A ev.op := by
  induction h with
  | ret a => simp
  | call res htail ih =>
    intro ev hev
    rcases List.mem_cons.mp hev with rfl | hev
    · exact hp.1
    · exact ih (hp.2 res) ev hev

/-- What a program with a bound on its operations adds to the past. -/
theorem Uses.sat_append {A : Op → Prop} {p : Prog Res α} (hp : p.Uses A)
    (hA : ∀ h op, A op → Φ h op) :
    p.Sat Φ (fun h' a => ∃ l, p.Yields l a ∧ (∀ ev ∈ l, A ev.op) ∧ h' = l.reverse ++ h) h := by
  refine (hp.sat hA).yields.mono (fun _ _ hop => hop) ?_
  rintro h' a ⟨-, l, hl, rfl⟩
  exact ⟨l, hl, hl.of_uses hp, rfl⟩

/-! ## Undisturbed runs -/

/-- `p` run alone from the shared state `s`, where `exec s op res s'` says that `op` can be answered
by `res` and leaves `s'` then: it performs the events of the list, oldest first, and leaves the
last state, `q` being what is left to do. -/
inductive Exec {σ : Type} (exec : σ → (op : Op) → Res op → σ → Prop) :
    σ → Prog Res α → List (Event Res) → Prog Res α → σ → Prop
  | refl (s : σ) (p : Prog Res α) : Exec exec s p [] p s
  | call {s s' s'' : σ} {op : Op} {k : Res op → Prog Res α} (res : Res op)
      {l : List (Event Res)} {q : Prog Res α} (hexec : exec s op res s')
      (htail : Exec exec s' (k res) l q s'') : Exec exec s (call op k) (⟨op, res⟩ :: l) q s''

section Exec

variable {σ : Type} {exec : σ → (op : Op) → Res op → σ → Prop} {s s' : σ} {p q : Prog Res α}
  {l : List (Event Res)}

theorem exec_ret_iff {a : α} : Exec exec s (ret a) l q s' ↔ l = [] ∧ q = ret a ∧ s' = s := by
  constructor
  · rintro ⟨⟩
    exact ⟨rfl, rfl, rfl⟩
  · rintro ⟨rfl, rfl, rfl⟩
    exact .refl _ _

/-- A program that has an operation to perform returns after performing it. -/
theorem exec_call_iff {op : Op} {k : Res op → Prog Res α} {a : α} :
    Exec exec s (call op k) l (ret a) s' ↔
      ∃ res l' s₁, l = ⟨op, res⟩ :: l' ∧ exec s op res s₁ ∧ Exec exec s₁ (k res) l' (ret a) s' := by
  constructor
  · rintro ⟨⟩
    exact ⟨_, _, _, rfl, ‹_›, ‹_›⟩
  · rintro ⟨res, l', s₁, rfl, hexec, htail⟩
    exact .call res hexec htail

/-- A sequence runs to its end by running its parts to their ends. -/
theorem exec_bind_iff {f : α → Prog Res β} {b : β} :
    Exec exec s (p >>= f) l (ret b) s' ↔
      ∃ a l₁ l₂ s₁, l = l₁ ++ l₂ ∧ Exec exec s p l₁ (ret a) s₁ ∧
        Exec exec s₁ (f a) l₂ (ret b) s' := by
  induction p generalizing s l with
  | ret a =>
    constructor
    · exact fun hrun => ⟨a, [], l, s, rfl, .refl _ _, hrun⟩
    · rintro ⟨a', l₁, l₂, s₁, rfl, hp, hf⟩
      obtain ⟨rfl, ha, rfl⟩ := exec_ret_iff.mp hp
      cases ha
      exact hf
  | call op k ih =>
    rw [call_bind, exec_call_iff]
    constructor
    · rintro ⟨res, l', s₂, rfl, hexec, htail⟩
      -- the first event belongs to `p`, and the rest is cut where the induction cuts it
      obtain ⟨a, l₁, l₂, s₁, rfl, hk, hf⟩ := (ih res).mp htail
      exact ⟨a, _ :: l₁, l₂, s₁, rfl, .call res hexec hk, hf⟩
    · rintro ⟨a, l₁, l₂, s₁, rfl, hp, hf⟩
      obtain ⟨res, l', s₂, rfl, hexec, htail⟩ := exec_call_iff.mp hp
      exact ⟨res, l' ++ l₂, s₂, rfl, hexec, (ih res).mpr ⟨a, l', l₂, s₁, rfl, htail, hf⟩⟩

/-- Run the first part of a sequence to its end, and the second part for a while. -/
theorem Exec.bind {f : α → Prog Res β} {a : α} {l' : List (Event Res)} {q' : Prog Res β} {s'' : σ}
    (hp : Exec exec s p l (ret a) s') (hf : Exec exec s' (f a) l' q' s'') :
    Exec exec s (p >>= f) (l ++ l') q' s'' := by
  generalize hq : ret a = q at hp
  induction hp with
  | refl s p =>
    subst hq
    exact hf
  | call res hexec htail ih => exact .call res hexec (ih hf hq)

/-- Run a program for a while, and what is left of it for a while. -/
theorem Exec.trans {l' : List (Event Res)} {q' : Prog Res α} {s'' : σ}
    (hp : Exec exec s p l q s') (hq : Exec exec s' q l' q' s'') :
    Exec exec s p (l ++ l') q' s'' := by
  induction hp with
  | refl s p => exact hq
  | call res hexec htail ih => exact .call res hexec (ih hq)

/-- A run to the end yields what the program returns. -/
theorem Exec.yields {a : α} (hrun : Exec exec s p l (ret a) s') : p.Yields l a := by
  generalize hq : ret a = q at hrun
  induction hrun with
  | refl s p =>
    subst hq
    exact .ret a
  | call res hexec htail ih => exact .call res (ih hq)

/-- When every operation can be answered, a program can be run to its end. -/
theorem exists_exec (hexec : ∀ s op, ∃ res s', exec s op res s') (p : Prog Res α) (s : σ) :
    ∃ l a s', Exec exec s p l (ret a) s' := by
  induction p generalizing s with
  | ret a => exact ⟨[], a, s, .refl _ _⟩
  | call op k ih =>
    obtain ⟨res, s₁, hres⟩ := hexec s op
    obtain ⟨l, a, s', htail⟩ := ih res s₁
    exact ⟨⟨op, res⟩ :: l, a, s', .call res hres htail⟩

/-- A run whose events all satisfy `C` is one under the rule that they do. -/
theorem Exec.and {C : Event Res → Prop} (hrun : Exec exec s p l q s') (hC : ∀ ev ∈ l, C ev) :
    Exec (fun s op res s' => exec s op res s' ∧ C ⟨op, res⟩) s p l q s' := by
  induction hrun with
  | refl s p => exact .refl s p
  | call res hexec htail ih =>
    exact .call res ⟨hexec, hC _ List.mem_cons_self⟩
      (ih fun ev hev => hC ev (List.mem_cons_of_mem _ hev))

/-- The operations performed satisfy the bound on the program's operations. -/
theorem Exec.of_uses {A : Op → Prop} (hrun : Exec exec s p l q s') (hp : p.Uses A) :
    ∀ ev ∈ l, A ev.op := by
  induction hrun with
  | refl s p => simp
  | call res hexec htail ih =>
    intro ev hev
    rcases List.mem_cons.mp hev with rfl | hev
    · exact hp.1
    · exact ih (hp.2 res) ev hev

/-- What is left of a program obeys the program's specification. -/
theorem Exec.sat (hrun : Exec exec s p l q s') (hp : p.Sat Φ Ψ h) :
    q.Sat Φ Ψ (l.reverse ++ h) := by
  induction hrun generalizing h with
  | refl s p => exact hp
  | call res hexec htail ih => simpa using ih (hp.2 res)

end Exec

end Prog

end Interleaving
