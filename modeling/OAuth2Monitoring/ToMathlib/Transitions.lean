import Mathlib.Data.Nat.Notation
import Mathlib.Logic.Relation

/-!
# Runs of a step function

A system given by a step function: in a state, a move can be taken or not, and it leads to one
state. A condition on the moves says which runs are meant: in each of their steps the move meets it
in the state it is taken in.

## Main definitions

* `Reaches step C s s'`: a run leads from `s` to `s'`.
* `play`, `Meets`: a list of moves played, and whether each of them meets the condition.

## Main results

* `Reaches.invariant`: the induction rule.
* `forall_play_iff`: a condition on the moves that is exact for a property of the states.
-/

namespace Transitions

variable {σ μ : Type} (step : σ → μ → Option σ)

/-- A run from `s` to `s'` whose moves meet `C`. -/
def Reaches (C : σ → μ → Prop) : σ → σ → Prop :=
  Relation.ReflTransGen fun s s' => ∃ m, C s m ∧ step s m = some s'

variable {step} {C : σ → μ → Prop} {s s' s'' : σ} {m : μ}

theorem Reaches.refl (s : σ) : Reaches step C s s := Relation.ReflTransGen.refl

theorem Reaches.snoc (h : Reaches step C s s') (hm : C s' m) (hstep : step s' m = some s'') :
    Reaches step C s s'' :=
  h.tail ⟨m, hm, hstep⟩

theorem Reaches.trans (h : Reaches step C s s') (h' : Reaches step C s' s'') :
    Reaches step C s s'' :=
  Relation.ReflTransGen.trans h h'

/-- What holds at the start and is kept by every move that meets the condition holds in every state
of a run. -/
theorem Reaches.invariant {I : σ → Prop} (h : Reaches step C s s') (hs : I s)
    (hstep : ∀ s m s', I s → C s m → step s m = some s' → I s') : I s' := by
  induction h with
  | refl => exact hs
  | tail _ hlast ih =>
    obtain ⟨m, hm, hmove⟩ := hlast
    exact hstep _ m _ ih hm hmove

variable (step)

/-- The state these moves lead to, if each of them can be taken. -/
def play (s : σ) : List μ → Option σ
  | [] => some s
  | m :: ms => (step s m).bind fun s' => play s' ms

/-- Does each of these moves meet the condition? -/
def Meets (C : σ → μ → Prop) (s : σ) : List μ → Prop
  | [] => True
  | m :: ms =>
    C s m ∧
      match step s m with
      | some s' => Meets C s' ms
      | none => True

instance decidableMeets [∀ s m, Decidable (C s m)] :
    (s : σ) → (ms : List μ) → Decidable (Meets step C s ms)
  | _, [] => .isTrue trivial
  | s, m :: ms =>
    have : Decidable (match step s m with
        | some s' => Meets step C s' ms
        | none => True) :=
      match step s m with
      | some s' => decidableMeets s' ms
      | none => .isTrue trivial
    inferInstanceAs (Decidable (_ ∧ _))

variable {step}

/-- A list of moves that is played reaches its end. -/
theorem reaches_of_play {ms : List μ} (hplay : play step s ms = some s')
    (hms : Meets step C s ms) : Reaches step C s s' := by
  induction ms generalizing s with
  | nil =>
    cases hplay
    exact .refl _
  | cons m ms ih =>
    obtain ⟨s₁, hstep, hrest⟩ := Option.bind_eq_some_iff.mp hplay
    obtain ⟨hm, hmeets⟩ := hms
    rw [hstep] at hmeets
    exact ((Reaches.refl s).snoc hm hstep).trans (ih hrest hmeets)

/-- When `I` gives `G`, is kept by the moves that meet `C`, and every other move breaks `G`: in all
states of a run `G` holds exactly when all moves meet `C`. -/
theorem forall_play_iff {I G : σ → Prop} (hG : ∀ s, I s → G s)
    (hkeep : ∀ s m s', I s → C s m → step s m = some s' → I s')
    (hbreak : ∀ s m s', I s → ¬C s m → step s m = some s' → ¬G s') {ms : List μ} (hs : I s)
    (hplay : play step s ms = some s') :
    (∀ n s', play step s (ms.take n) = some s' → G s') ↔ Meets step C s ms := by
  induction ms generalizing s with
  | nil =>
    refine iff_of_true (fun n s'' h => ?_) trivial
    rw [List.take_nil] at h
    cases h
    exact hG s hs
  | cons m ms ih =>
    obtain ⟨s₁, hstep, hrest⟩ := Option.bind_eq_some_iff.mp hplay
    -- the states after the first move are those of the rest of the run
    have htail (n : ℕ) : play step s ((m :: ms).take (n + 1)) = play step s₁ (ms.take n) := by
      rw [List.take_succ_cons, play, hstep]
      rfl
    have hmeets : Meets step C s (m :: ms) ↔ C s m ∧ Meets step C s₁ ms := by
      rw [Meets, hstep]
    rw [hmeets]
    constructor
    · intro hall
      have hm : C s m := Classical.byContradiction fun hm =>
        hbreak s m s₁ hs hm hstep (hall 1 s₁ (htail 0))
      refine ⟨hm, (ih (hkeep s m s₁ hs hm hstep) hrest).mp fun n s'' h => ?_⟩
      exact hall (n + 1) s'' ((htail n).trans h)
    · rintro ⟨hm, hms⟩ n s'' h
      cases n with
      | zero =>
        cases h
        exact hG s hs
      | succ n =>
        rw [htail n] at h
        exact (ih (hkeep s m s₁ hs hm hstep) hrest).mpr hms n s'' h

end Transitions
