import OAuth2Monitoring.GoStd.Path
import Mathlib.Data.Int.Notation
import Mathlib.Data.List.TakeWhile

/-!
# Words of the shell

What the scripts use of bash: parameters with a default, command substitution, and the integers of
the `[` command.
-/

namespace Scripts

open GoStd

/-- `${NAME:-word}`. -/
def orWord (value : Option Bytes) (word : Bytes) : Bytes :=
  match value with
  | none | some [] => word
  | some v => v

/-- The byte of a line feed. -/
def newline : UInt8 := 10

/-- What `$(…)` holds of the lines a command writes, none of which is empty: the newline at the end
is dropped. -/
def captured (lines : List Bytes) : Bytes := List.intercalate [newline] lines

/-! ## Integers -/

/-- White space of the C locale. -/
def isSpace (c : UInt8) : Bool := (9 ≤ c ∧ c ≤ 13) ∨ c = 32

/-- A blank or a tab. -/
def isBlank (c : UInt8) : Bool := c = 9 ∨ c = 32

/-- A decimal digit. -/
def isDigit (c : UInt8) : Bool := 48 ≤ c ∧ c ≤ 57

/-- The number these digits stand for. -/
def decimal (digits : Bytes) : ℕ := digits.foldl (fun n c => 10 * n + (c.toNat - 48)) 0

/-- The sign in front of a number, and what follows it. -/
def splitSign : Bytes → ℤ × Bytes
  | 45 :: rest => (-1, rest)
  | 43 :: rest => (1, rest)
  | rest => (1, rest)

/-- The integer `[` makes of a word: digits, maybe with a sign, between white space and blanks, for
a number of 64 bits. -/
def integer (word : Bytes) : Option ℤ :=
  let (sign, number) := splitSign (word.dropWhile isSpace)
  let digits := number.takeWhile isDigit
  let z := sign * decimal digits
  if digits ≠ [] ∧ (number.dropWhile isDigit).all isBlank ∧
      -9223372036854775808 ≤ z ∧ z ≤ 9223372036854775807 then some z
  else none

/-- The exit status of `[ "$word" -gt 0 ]`. A word that is no integer is an error. -/
def testPositive (word : Bytes) : ℕ :=
  match integer word with
  | some z => if z > 0 then 0 else 1
  | none => 2

/-- `[ word -gt 0 ]` is true of the positive integers only. -/
theorem testPositive_eq_zero_iff {word : Bytes} :
    testPositive word = 0 ↔ ∃ z, integer word = some z ∧ 0 < z := by
  unfold testPositive
  split
  · next z hz =>
    rw [hz]
    by_cases hpos : 0 < z <;> simp [hpos]
  · next hz => simp [hz]

theorem mem_of_mem_splitSign {c : UInt8} {word : Bytes} (hc : c ∈ word) (hnot : c ≠ 45)
    (hnot' : c ≠ 43) : c ∈ (splitSign word).2 := by
  unfold splitSign
  split
  · exact (List.mem_cons.mp hc).resolve_left hnot
  · exact (List.mem_cons.mp hc).resolve_left hnot'
  · exact hc

/-- A text of several lines is no integer, unless it starts with white space. -/
theorem integer_eq_none_of_newline {c : UInt8} {rest : Bytes} (hc : isSpace c = false)
    (hline : newline ∈ rest) : integer (c :: rest) = none := by
  have hfront : (c :: rest).dropWhile isSpace = c :: rest :=
    List.dropWhile_cons_of_neg (Bool.not_eq_true _ ▸ hc)
  have hmem : newline ∈ (splitSign (c :: rest)).2 :=
    mem_of_mem_splitSign (List.mem_cons_of_mem c hline) (by decide) (by decide)
  -- the newline is not among the digits, so it is left over, and it is no blank
  have hleft : newline ∈ (splitSign (c :: rest)).2.dropWhile isDigit := by
    rw [← List.takeWhile_append_dropWhile (p := isDigit) (l := (splitSign (c :: rest)).2),
      List.mem_append] at hmem
    refine hmem.resolve_left fun hdigit => ?_
    have hno := List.mem_takeWhile_imp hdigit
    exact absurd hno (by decide)
  unfold integer
  rw [hfront]
  dsimp only
  rw [if_neg]
  rintro ⟨-, hblank, -⟩
  have hno := List.all_eq_true.mp hblank _ hleft
  exact absurd hno (by decide)

/-- The empty word is no integer. -/
theorem integer_nil : integer [] = none := by decide

/-- What starts with another byte is no integer. -/
theorem integer_eq_none_of_front {c : UInt8} {rest : Bytes}
    (hc : isSpace c = false ∧ isDigit c = false ∧ c ≠ 45 ∧ c ≠ 43) :
    integer (c :: rest) = none := by
  obtain ⟨hspace, hdigit, hminus, hplus⟩ := hc
  have hsign : splitSign (c :: rest) = (1, c :: rest) := by
    unfold splitSign
    split
    · next heq => exact absurd (List.cons.inj heq).1 hminus
    · next heq => exact absurd (List.cons.inj heq).1 hplus
    · rfl
  -- so there are no digits at all
  unfold integer
  rw [List.dropWhile_cons_of_neg (by simp [hspace]), hsign]
  dsimp only
  rw [List.takeWhile_cons_of_neg (by simp [hdigit]), if_neg (fun h => h.1 rfl)]

/-! ## Zero -/

theorem decimal_eq_zero {digits : Bytes} (h : ∀ c ∈ digits, c = 48) : decimal digits = 0 := by
  rw [List.eq_replicate_of_mem h]
  induction digits.length with
  | zero => rfl
  | succ n ih =>
    rw [List.replicate_succ]
    exact ih

/-- The digits `[` reads are among those in front of an exponent. -/
theorem eq_zero_of_integer {word : Bytes} {z : ℤ} (hz : integer word = some z)
    (hspace : ∀ c ∈ word, isSpace c = false)
    (hzero : ∀ c ∈ word.takeWhile (fun c => c ≠ 69 ∧ c ≠ 101), isDigit c = true → c = 48) :
    z = 0 := by
  unfold integer at hz
  rw [List.dropWhile_eq_self_iff.mpr fun hlen => by simp [hspace]] at hz
  dsimp only at hz
  split at hz
  · cases hz
    -- the sign is no `e`, so it does not matter
    have hnumber : (splitSign word).2.takeWhile (fun c => c ≠ 69 ∧ c ≠ 101) ⊆
        word.takeWhile (fun c => c ≠ 69 ∧ c ≠ 101) := by
      unfold splitSign
      split
      · exact List.subset_cons_of_subset _ (List.Subset.refl _)
      · exact List.subset_cons_of_subset _ (List.Subset.refl _)
      · exact List.Subset.refl _
    rw [decimal_eq_zero, Int.natCast_zero, Int.mul_zero]
    intro c hc
    have hdigit : isDigit c = true := List.mem_takeWhile_imp hc
    refine hzero c (hnumber ?_) hdigit
    -- a digit is no `e` either
    have hsplit : (splitSign word).2.takeWhile isDigit =
        ((splitSign word).2.takeWhile fun c => c ≠ 69 ∧ c ≠ 101).takeWhile isDigit := by
      rw [List.takeWhile_takeWhile]
      congr 1
      funext c
      by_cases h : isDigit c = true
      · have hne : c ≠ 69 ∧ c ≠ 101 := by
          constructor <;> rintro rfl <;> exact absurd h (by decide)
        simp [h, hne]
      · simp [h]
    rw [hsplit] at hc
    exact (List.takeWhile_prefix _).subset hc
  · cases hz

end Scripts
