import Mathlib.Data.List.Basic

/-!
# Splitting a list at a separator, piece by piece

`List.splitOn a` cuts a list at every `a`. The pieces do not contain `a`, and splitting is
incremental: cut what has arrived so far, keep the last piece, and continue with it in front of
what arrives next (`splitOn_append`). `assemble` is that loop over a list of chunks.
-/

namespace List

variable {α : Type*} [BEq α] [LawfulBEq α]

theorem splitOn_cons_self (a : α) (xs : List α) : (a :: xs).splitOn a = [] :: xs.splitOn a := by
  simp [splitOn_cons_eq_if_modifyHead]

theorem splitOn_cons_of_ne {a x : α} (h : x ≠ a) (xs : List α) :
    (x :: xs).splitOn a = (xs.splitOn a).modifyHead (x :: ·) := by
  simp [splitOn_cons_eq_if_modifyHead, h]

/-- The pieces do not contain the separator. -/
theorem not_mem_of_mem_splitOn {a : α} {xs piece : List α} (h : piece ∈ xs.splitOn a) :
    a ∉ piece := by
  induction xs generalizing piece with
  | nil => simp_all [splitOn_nil]
  | cons x xs ih =>
    by_cases hx : x = a
    · subst hx
      rw [splitOn_cons_self, mem_cons] at h
      rcases h with rfl | h
      · simp
      · exact ih h
    · -- the first piece begins with `x`, and the others are pieces of the rest
      rw [splitOn_cons_of_ne hx] at h
      obtain ⟨s, rest, hs⟩ := exists_cons_of_ne_nil (splitOn_ne_nil a xs)
      rw [hs, modifyHead_cons, mem_cons] at h
      rcases h with rfl | h
      · have hmem : s ∈ xs.splitOn a := by
          rw [hs]
          exact mem_cons_self
        simpa [Ne.symm hx] using ih hmem
      · exact ih (by rw [hs]; exact mem_cons_of_mem _ h)

omit [BEq α] [LawfulBEq α] in
/-- Joining with an empty piece at the end leaves a separator there. -/
theorem intercalate_append_nil (a : α) {pieces : List (List α)} (h : pieces ≠ []) :
    [a].intercalate (pieces ++ [[]]) = [a].intercalate pieces ++ [a] := by
  induction pieces with
  | nil => exact absurd rfl h
  | cons piece pieces ih =>
    cases pieces with
    | nil => simp
    | cons next pieces => simpa [intercalate_cons_cons] using ih (cons_ne_nil next pieces)

omit [BEq α] [LawfulBEq α] in
/-- Pieces behind others, a separator between them. -/
theorem intercalate_append (a : α) {pieces pieces' : List (List α)} (h : pieces ≠ [])
    (h' : pieces' ≠ []) :
    [a].intercalate (pieces ++ pieces') =
      [a].intercalate pieces ++ a :: [a].intercalate pieces' := by
  induction pieces with
  | nil => exact absurd rfl h
  | cons piece pieces ih =>
    cases pieces with
    | nil =>
      obtain ⟨next, rest, rfl⟩ := exists_cons_of_ne_nil h'
      simp [intercalate_cons_cons]
    | cons next pieces => simpa [intercalate_cons_cons] using ih (cons_ne_nil next pieces)

omit [BEq α] [LawfulBEq α] in
/-- What a joined list holds is the separator, or stands in a piece. -/
theorem mem_of_mem_intercalate {a c : α} {pieces : List (List α)}
    (h : c ∈ [a].intercalate pieces) : c = a ∨ ∃ piece ∈ pieces, c ∈ piece := by
  induction pieces with
  | nil => cases h
  | cons piece pieces ih =>
    rw [exists_mem_cons_iff]
    by_cases hnil : pieces = []
    · subst hnil
      exact .inr (.inl (by simpa using h))
    · rw [intercalate_cons_of_ne_nil hnil, append_assoc] at h
      rcases mem_append.mp h with h | h
      · exact .inr (.inl h)
      · rcases mem_append.mp h with h | h
        · exact .inl (mem_singleton.mp h)
        · exact (ih h).imp_right .inr

/-- A list whose pieces begin with those of `ys` and go on is `ys` and a separator at its front. -/
theorem splitOn_prefix_iff (a : α) (xs ys : List α) :
    (ys.splitOn a <+: xs.splitOn a ∧ (ys.splitOn a).length < (xs.splitOn a).length) ↔
      ys ++ [a] <+: xs := by
  constructor
  · rintro ⟨⟨rest, hrest⟩, hlen⟩
    have hne : rest ≠ [] := by
      rintro rfl
      rw [append_nil] at hrest
      rw [hrest] at hlen
      exact Nat.lt_irrefl _ hlen
    -- what stands behind the prefix is put together again from its pieces
    refine ⟨[a].intercalate rest, ?_⟩
    rw [← @intercalate_splitOn _ xs _ _ a, ← hrest, intercalate_append a (splitOn_ne_nil a ys) hne,
      intercalate_splitOn, append_assoc, singleton_append]
  · rintro ⟨rest, rfl⟩
    rw [append_assoc, singleton_append, splitOn_append_cons_self]
    exact ⟨prefix_append _ _, by simpa using length_pos_of_ne_nil (splitOn_ne_nil a rest)⟩

/-- Pieces determine the list. -/
theorem splitOn_inj {a : α} {xs ys : List α} : xs.splitOn a = ys.splitOn a ↔ xs = ys := by
  refine ⟨fun h => ?_, congrArg _⟩
  rw [← @intercalate_splitOn _ xs _ _ a, h, intercalate_splitOn]

/-- What stands in front of the first separator goes to the first piece. -/
theorem splitOn_append_of_not_mem {a : α} {xs : List α} (h : a ∉ xs) (ys : List α) :
    (xs ++ ys).splitOn a = (ys.splitOn a).modifyHead (xs ++ ·) := by
  obtain ⟨s, rest, hs⟩ := exists_cons_of_ne_nil (splitOn_ne_nil a ys)
  induction xs with
  | nil => simp [hs]
  | cons x xs ih =>
    rw [mem_cons, not_or] at h
    rw [cons_append, splitOn_cons_of_ne (Ne.symm h.1), ih h.2, hs]
    rfl

/-- The last piece: what stands behind the last separator. -/
def lastPiece (a : α) (xs : List α) : List α := (xs.splitOn a).getLast (splitOn_ne_nil a xs)

/-- The pieces before the last separator. -/
def fullPieces (a : α) (xs : List α) : List (List α) := (xs.splitOn a).dropLast

omit [LawfulBEq α] in
/-- The pieces are the full ones and the last one. -/
theorem splitOn_eq_fullPieces_append (a : α) (xs : List α) :
    xs.splitOn a = xs.fullPieces a ++ [xs.lastPiece a] :=
  (dropLast_append_getLast _).symm

/-- A separator ends a full piece. -/
theorem fullPieces_append_cons_self (a : α) (xs ys : List α) :
    (xs ++ a :: ys).fullPieces a = xs.splitOn a ++ ys.fullPieces a := by
  rw [fullPieces, splitOn_append_cons_self, dropLast_append_of_ne_nil (splitOn_ne_nil _ _),
    fullPieces]

/-- What is in front without a separator belongs to the first piece. -/
theorem fullPieces_append_of_not_mem {a : α} {xs : List α} (h : a ∉ xs) (ys : List α) :
    (xs ++ ys).fullPieces a = (ys.fullPieces a).modifyHead (xs ++ ·) := by
  obtain ⟨s, rest, hs⟩ := exists_cons_of_ne_nil (splitOn_ne_nil a ys)
  rw [fullPieces, splitOn_append_of_not_mem h, fullPieces, hs]
  cases rest <;> rfl

/-- A full piece has no separator. -/
theorem not_mem_of_mem_fullPieces {a : α} {xs piece : List α} (h : piece ∈ xs.fullPieces a) :
    a ∉ piece :=
  not_mem_of_mem_splitOn (dropLast_subset _ h)

theorem not_mem_lastPiece (a : α) (xs : List α) : a ∉ xs.lastPiece a :=
  not_mem_of_mem_splitOn (getLast_mem (splitOn_ne_nil a xs))

/-- A list is its full pieces, a separator behind each, and its last piece. -/
theorem flatMap_fullPieces_append (a : α) (xs : List α) :
    (xs.fullPieces a).flatMap (· ++ [a]) ++ xs.lastPiece a = xs := by
  induction xs with
  | nil => simp [fullPieces, lastPiece, splitOn_nil]
  | cons x xs ih =>
    obtain ⟨s, rest, hs⟩ := exists_cons_of_ne_nil (splitOn_ne_nil a xs)
    by_cases hx : x = a
    · subst hx
      simp only [fullPieces, lastPiece, splitOn_cons_self, hs] at ih ⊢
      simpa using ih
    · simp only [fullPieces, lastPiece, splitOn_cons_of_ne hx, hs] at ih ⊢
      cases rest with
      | nil => simpa using ih
      | cons t rest => simpa using ih

omit [BEq α] [LawfulBEq α] in
/-- Pieces with a separator behind each, but for the last, are the pieces joined. -/
theorem dropLast_flatMap_append (a : α) {pieces : List (List α)} (h : pieces ≠ []) :
    (pieces.flatMap (· ++ [a])).dropLast = [a].intercalate pieces := by
  induction pieces with
  | nil => exact absurd rfl h
  | cons piece pieces ih =>
    cases pieces with
    | nil => simp
    | cons next pieces =>
      have hnext : (next :: pieces).flatMap (· ++ [a]) ≠ [] := by simp
      rw [flatMap_cons, dropLast_append_of_ne_nil hnext, ih (cons_ne_nil _ _),
        intercalate_cons_cons, append_assoc]

/-- A piece holds every element that is no separator. -/
theorem exists_mem_splitOn {a x : α} {xs : List α} (h : x ∈ xs) (hx : x ≠ a) :
    ∃ piece ∈ xs.splitOn a, x ∈ piece := by
  rw [← flatMap_fullPieces_append a xs, mem_append, mem_flatMap] at h
  rw [splitOn_eq_fullPieces_append]
  rcases h with ⟨piece, hpiece, h⟩ | h
  · refine ⟨piece, mem_append_left _ hpiece, ?_⟩
    rw [mem_append, mem_singleton] at h
    exact h.resolve_right hx
  · exact ⟨xs.lastPiece a, by simp, h⟩

/-- Splitting can stop and go on: of what stands in front, only the last piece is still needed. -/
theorem splitOn_append (a : α) (xs ys : List α) :
    (xs ++ ys).splitOn a = xs.fullPieces a ++ (xs.lastPiece a ++ ys).splitOn a := by
  induction xs with
  | nil => simp [fullPieces, lastPiece, splitOn_nil]
  | cons x xs ih =>
    -- the last piece of `xs` and the first of `ys` become one
    obtain ⟨s, rest, hs⟩ := exists_cons_of_ne_nil (splitOn_ne_nil a xs)
    by_cases hx : x = a
    · subst hx
      simp only [cons_append, splitOn_cons_self, ih]
      simp [fullPieces, lastPiece, splitOn_cons_self, hs]
    · simp only [cons_append, splitOn_cons_of_ne hx, ih]
      cases rest with
      | nil =>
        simp [fullPieces, lastPiece, splitOn_cons_of_ne hx, hs]
      | cons t rest =>
        simp [fullPieces, lastPiece, splitOn_cons_of_ne hx, hs]

/-- The last piece goes on with what is appended. -/
theorem fullPieces_append (a : α) (xs ys : List α) :
    (xs ++ ys).fullPieces a = xs.fullPieces a ++ (xs.lastPiece a ++ ys).fullPieces a := by
  rw [fullPieces, splitOn_append, dropLast_append_of_ne_nil (splitOn_ne_nil _ _), fullPieces,
    fullPieces]

/-- The pieces completed by each of a list of chunks when the unfinished piece is carried over
from one chunk to the next, starting with `carry`. -/
def assemble (a : α) : List α → List (List α) → List (List (List α))
  | _, [] => []
  | carry, chunk :: chunks =>
      (carry ++ chunk).fullPieces a :: assemble a ((carry ++ chunk).lastPiece a) chunks

/-- However a list is cut into chunks, the pieces completed by all of them are the same. -/
theorem flatten_assemble (a : α) (carry : List α) (chunks : List (List α)) (h : a ∉ carry) :
    (assemble a carry chunks).flatten = (carry ++ chunks.flatten).fullPieces a := by
  induction chunks generalizing carry with
  | nil =>
    simp [assemble, fullPieces, splitOn_eq_singleton h]
  | cons chunk chunks ih =>
    have hlast : a ∉ (carry ++ chunk).lastPiece a :=
      not_mem_of_mem_splitOn (getLast_mem (splitOn_ne_nil a (carry ++ chunk)))
    rw [assemble, flatten_cons, ih _ hlast, flatten_cons, ← append_assoc,
      fullPieces_append a (carry ++ chunk)]

end List
