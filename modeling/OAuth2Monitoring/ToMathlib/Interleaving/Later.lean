import OAuth2Monitoring.ToMathlib.Interleaving.Pool
import Mathlib.Logic.Relation

/-!
# The pools between two moments of a run

`Later P P'` says that the run that reached `P` can go on to `P'`. Each entry of a trace was the
newest one at some moment, so a run can be cut right behind it, and what holds from there on is
proved by induction over the rest of the run.

## Main results

* `Reachable.exists_cut`: the moment right behind an entry of the trace.
-/

namespace Interleaving

variable {Op : Type} {Res : Op → Type} {σ ι α : Type}
  {exec : σ → (op : Op) → Res op → σ → Prop} {code : ι → Prog Res α} {env : σ → σ → Prop}
  {s₀ : σ} {P P' : Pool σ ι Res α}

/-- The pool `P'` is reached from `P` by going on. -/
def Later (exec : σ → (op : Op) → Res op → σ → Prop) (code : ι → Prog Res α) (env : σ → σ → Prop) :
    Pool σ ι Res α → Pool σ ι Res α → Prop :=
  Relation.ReflTransGen (Step exec code env)

/-- What comes after a reachable pool is reachable. -/
theorem Reachable.later (hP : Reachable exec code env s₀ P) (h : Later exec code env P P') :
    Reachable exec code env s₀ P' := by
  induction h with
  | refl => exact hP
  | tail _ hstep ih => exact ih.step hstep

/-- A step adds at most one entry, in front. -/
theorem Step.trace_eq (h : Step exec code env P P') :
    P'.trace = P.trace ∨ ∃ e, P'.trace = e :: P.trace ∧
      exec P.shared e.event.op e.event.res P'.shared := by
  cases h with
  | spawn j => exact .inl rfl
  | advance t res hnext hexec => exact .inr ⟨_, rfl, hexec⟩
  | env henv => exact .inl rfl

/-- A run may be cut right behind each entry of its trace. -/
theorem Reachable.exists_cut (hP : Reachable exec code env s₀ P) {newer older : List (Entry ι Res)}
    {e : Entry ι Res} (htr : P.trace = newer ++ e :: older) :
    ∃ P₀ P₁, Reachable exec code env s₀ P₀ ∧ P₀.trace = older ∧ Step exec code env P₀ P₁ ∧
      exec P₀.shared e.event.op e.event.res P₁.shared ∧ P₁.trace = e :: older ∧
      Later exec code env P₁ P := by
  induction hP generalizing newer with
  | start => simp [Pool.start] at htr
  | @step P P' hP hstep ih =>
    rcases hstep.trace_eq with h | ⟨e', h, hexec⟩
    · rw [h] at htr
      obtain ⟨P₀, P₁, hP₀, hold, hstep₀, hex, hnew, hlater⟩ := ih htr
      exact ⟨P₀, P₁, hP₀, hold, hstep₀, hex, hnew, hlater.tail hstep⟩
    · -- the step's own entry is the newest one
      rw [h] at htr
      cases newer with
      | nil =>
        obtain ⟨rfl, hold⟩ := List.cons.inj htr
        exact ⟨P, P', hP, hold, hstep, hexec, by rw [h, hold], .refl⟩
      | cons x newer =>
        obtain ⟨P₀, P₁, hP₀, hold, hstep₀, hex, hnew, hlater⟩ := ih (List.cons.inj htr).2
        exact ⟨P₀, P₁, hP₀, hold, hstep₀, hex, hnew, hlater.tail hstep⟩

end Interleaving
