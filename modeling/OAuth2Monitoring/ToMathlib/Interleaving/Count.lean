import OAuth2Monitoring.ToMathlib.Interleaving.Pool

/-!
# Counting the events of a run

When each thread does something at most once, and only after it has done something else, the
whole run does the one at most as often as the other. This is how a bound on what a shared
resource grants becomes a bound on what all programs do with it.
-/

namespace Interleaving

variable {Op : Type} {Res : Op → Type} {ι : Type} {p q : Entry ι Res → Bool}
  {tr : List (Entry ι Res)}

/-- The entries of one thread. -/
def entries (t : ℕ) (tr : List (Entry ι Res)) : List (Entry ι Res) :=
  tr.filter fun e => e.tid = t

theorem mem_entries {t : ℕ} {e : Entry ι Res} : e ∈ entries t tr ↔ e ∈ tr ∧ e.tid = t := by
  simp [entries]

theorem entries_cons (t : ℕ) (e : Entry ι Res) :
    entries t (e :: tr) = if e.tid = t then e :: entries t tr else entries t tr := by
  by_cases h : e.tid = t <;> simp [entries, h]

/-- Counting by threads: the threads below `n + 1` are those below `n` and the thread `n`. -/
theorem countP_lt_succ (p : Entry ι Res → Bool) (n : ℕ) :
    tr.countP (fun e => p e && decide (e.tid < n + 1)) =
      tr.countP (fun e => p e && decide (e.tid < n)) + (entries n tr).countP p := by
  induction tr with
  | nil => rfl
  | cons e tr ih =>
    simp only [List.countP_cons, ih, entries_cons]
    by_cases hp : p e = true
    -- thread `n` is counted apart, and any other is on one side of both bounds
    · rcases Nat.lt_trichotomy e.tid n with h | h | h
      · simp [hp, h, Nat.lt_succ_of_lt h, Nat.ne_of_lt h]
        omega
      · simp [hp, h]
        omega
      · have h1 : ¬e.tid < n := by omega
        have h2 : ¬e.tid < n + 1 := by omega
        have h3 : e.tid ≠ n := by omega
        simp [h1, h2, h3]
    · by_cases ht : e.tid = n <;> simp [hp, ht]

/-- A trace has finitely many threads. -/
theorem exists_tid_lt (tr : List (Entry ι Res)) : ∃ n, ∀ e ∈ tr, e.tid < n := by
  induction tr with
  | nil => exact ⟨0, by simp⟩
  | cons e tr ih =>
    obtain ⟨n, hn⟩ := ih
    refine ⟨max n (e.tid + 1), fun e' he' => ?_⟩
    rcases List.mem_cons.mp he' with rfl | he'
    · omega
    · have := hn e' he'
      omega

/-- A bound that holds thread by thread holds for the run. -/
theorem countP_le_of_entries (h : ∀ t, (entries t tr).countP p ≤ (entries t tr).countP q) :
    tr.countP p ≤ tr.countP q := by
  -- by induction on a bound of the threads that are counted
  have hlt : ∀ n, tr.countP (fun e => p e && decide (e.tid < n)) ≤
      tr.countP (fun e => q e && decide (e.tid < n)) := by
    intro n
    induction n with
    | zero => simp
    | succ n ih =>
      rw [countP_lt_succ, countP_lt_succ]
      exact Nat.add_le_add ih (h n)
  obtain ⟨n, hn⟩ := exists_tid_lt tr
  have hall : ∀ r : Entry ι Res → Bool,
      tr.countP (fun e => r e && decide (e.tid < n)) = tr.countP r := fun r =>
    List.countP_congr fun e he => by simp [hn e he]
  rw [← hall p, ← hall q]
  exact hlt n

/-- A thread that does `p` at most once, and only after it has done `q`, does `p` at most as often
as `q`; so does the run. -/
theorem countP_le_of_once
    (h : Along (fun older e => p e = true →
      (∀ e' ∈ entries e.tid older, p e' = false) ∧ ∃ e' ∈ entries e.tid older, q e' = true) tr) :
    tr.countP p ≤ tr.countP q := by
  refine countP_le_of_entries fun t => ?_
  induction tr with
  | nil => simp [entries]
  | cons e tr ih =>
    have ih := ih h.2
    rw [entries_cons]
    split
    · rename_i ht
      subst ht
      rw [List.countP_cons, List.countP_cons]
      by_cases hp : p e = true
      · -- the first `p` of the thread: it has done `q` already
        obtain ⟨hnone, e', he', hq⟩ := h.1 hp
        have hzero : (entries e.tid tr).countP p = 0 :=
          List.countP_eq_zero.mpr fun x hx => by simp [hnone x hx]
        have hone : 0 < (entries e.tid tr).countP q := List.countP_pos_iff.mpr ⟨e', he', hq⟩
        rw [hzero, if_pos hp]
        omega
      · rw [if_neg hp]
        omega
    · exact ih

end Interleaving
