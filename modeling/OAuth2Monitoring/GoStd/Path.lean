import OAuth2Monitoring.ToMathlib.SplitOn

/-!
# Go's `path.Clean`

A Go string is its bytes, and a path is read as the segments between its slashes. `clean` follows
the documentation of `path.Clean`: empty and `.` segments are dropped, a `..` segment takes the
segment before it along, and the `..` segments a rooted path begins with are dropped.

A rooted path is `Canonical` when none of its segments is `.` or `..` and none but the first and
the last is empty. `eq_clean_iff` says that these are the paths `clean` leaves as they are, up to
one trailing slash, and the path of two slashes besides.
-/

namespace GoStd

/-- A Go string. -/
abbrev Bytes := List UInt8

instance : LawfulBEq Bytes := inferInstance

/-- The bytes of a literal of ASCII characters. -/
def ascii (s : String) : Bytes := s.toList.map fun c => c.toNat.toUInt8

/-- The byte `/`. -/
def slash : UInt8 := 47

/-- The segment `.`. -/
def dotSegment : Bytes := [46]

/-- The segment `..`. -/
def dotDotSegment : Bytes := [46, 46]

/-- What `path.Clean` does at one segment, with the segments kept so far, last first. -/
def pushSegment (rooted : Bool) (kept : List Bytes) (seg : Bytes) : List Bytes :=
  if seg = [] ∨ seg = dotSegment then kept
  else if seg = dotDotSegment then
    match kept with
    | [] => if rooted then [] else [seg]
    | last :: rest => if last = dotDotSegment then seg :: last :: rest else rest
  else seg :: kept

/-- `path.Clean`. -/
def clean (p : Bytes) : Bytes :=
  if p = [] then dotSegment
  else
    let rooted := p.head? = some slash
    let body := [slash].intercalate ((p.splitOn slash).foldl (pushSegment rooted) []).reverse
    if rooted then slash :: body else if body = [] then dotSegment else body

/-- A segment `path.Clean` keeps in any place. -/
def Plain (seg : Bytes) : Prop := seg ≠ [] ∧ seg ≠ dotSegment ∧ seg ≠ dotDotSegment

instance : DecidablePred Plain := fun seg => by unfold Plain; infer_instance

/-- No segment is `.` or `..`, and none but the first and the last is empty. -/
def Canonical (p : Bytes) : Prop :=
  (∀ seg ∈ p.splitOn slash, seg ≠ dotSegment ∧ seg ≠ dotDotSegment) ∧
    ∀ seg ∈ (p.splitOn slash).tail.dropLast, seg ≠ []

instance : DecidablePred Canonical := fun p => by unfold Canonical; infer_instance

theorem splitOn_slash_cons (q : Bytes) :
    (slash :: q).splitOn slash = [] :: q.splitOn slash := by
  simpa using List.splitOn_append_cons_self (a := slash) [] q

/-- A rooted path is canonical when its segments behind the first slash are plain, except that
the last of them may be empty. -/
theorem canonical_cons_iff (q : Bytes) :
    Canonical (slash :: q) ↔
      (∀ seg ∈ q.splitOn slash, seg ≠ dotSegment ∧ seg ≠ dotDotSegment) ∧
        ∀ seg ∈ (q.splitOn slash).dropLast, seg ≠ [] := by
  simp [Canonical, splitOn_slash_cons, dotSegment, dotDotSegment]

/-! ## Segments that are kept -/

theorem pushSegment_of_plain {rooted : Bool} {kept : List Bytes} {seg : Bytes} (h : Plain seg) :
    pushSegment rooted kept seg = seg :: kept := by
  obtain ⟨h0, h1, h2⟩ := h
  simp [pushSegment, h0, h1, h2]

theorem pushSegment_nil (rooted : Bool) (kept : List Bytes) :
    pushSegment rooted kept [] = kept := by
  simp [pushSegment]

/-- Plain segments are all kept. -/
theorem foldl_pushSegment_of_plain {rooted : Bool} {l : List Bytes} (h : ∀ seg ∈ l, Plain seg)
    (kept : List Bytes) : l.foldl (pushSegment rooted) kept = l.reverse ++ kept := by
  induction l generalizing kept with
  | nil => rfl
  | cons seg l ih =>
    rw [List.foldl_cons, pushSegment_of_plain (h seg List.mem_cons_self),
      ih fun s hs => h s (List.mem_cons_of_mem _ hs)]
    simp

/-- In a rooted path only plain segments are kept, and they are segments of the path. -/
theorem mem_foldl_pushSegment {l kept : List Bytes} {seg : Bytes}
    (hkept : ∀ s ∈ kept, Plain s) (h : seg ∈ l.foldl (pushSegment true) kept) :
    Plain seg ∧ (seg ∈ kept ∨ seg ∈ l) := by
  induction l generalizing kept with
  | nil => exact ⟨hkept seg h, .inl h⟩
  | cons s l ih =>
    -- one segment is skipped, or drops the last one kept, or is kept itself
    have hpush : ∀ x ∈ pushSegment true kept s, Plain x ∧ (x ∈ kept ∨ x = s) := by
      intro x hx
      unfold pushSegment at hx
      split at hx
      · exact ⟨hkept x hx, .inl hx⟩
      · rename_i hs
        push Not at hs
        split at hx
        · cases kept with
          | nil => simp at hx
          | cons last rest =>
            have hlast := (hkept last List.mem_cons_self).2.2
            simp only [if_neg hlast] at hx
            exact ⟨hkept x (List.mem_cons_of_mem _ hx), .inl (List.mem_cons_of_mem _ hx)⟩
        · rename_i hdd
          rcases List.mem_cons.mp hx with rfl | hx
          · exact ⟨⟨hs.1, hs.2, hdd⟩, .inr rfl⟩
          · exact ⟨hkept x hx, .inl hx⟩
    obtain ⟨hplain, hmem⟩ := ih (fun x hx => (hpush x hx).1) h
    refine ⟨hplain, ?_⟩
    rcases hmem with hmem | hmem
    · rcases (hpush seg hmem).2 with hk | rfl
      · exact .inl hk
      · exact .inr List.mem_cons_self
    · exact .inr (List.mem_cons_of_mem _ hmem)

/-- The segments `clean` keeps of the rooted path `slash :: q`, in order. -/
def keptSegments (q : Bytes) : List Bytes :=
  ((q.splitOn slash).foldl (pushSegment true) []).reverse

/-- A rooted path is cleaned to its kept segments. -/
theorem clean_cons (q : Bytes) :
    clean (slash :: q) = slash :: [slash].intercalate (keptSegments q) := by
  simp [clean, keptSegments, splitOn_slash_cons, pushSegment_nil]

/-- The segments that are kept are plain. -/
theorem plain_of_mem_keptSegments {q seg : Bytes} (h : seg ∈ keptSegments q) :
    Plain seg ∧ slash ∉ seg := by
  obtain ⟨hplain, hmem⟩ :=
    @mem_foldl_pushSegment _ [] seg (by simp) (List.mem_reverse.mp h)
  refine ⟨hplain, ?_⟩
  have hmem : seg ∈ q.splitOn slash := by simpa using hmem
  exact List.not_mem_of_mem_splitOn hmem

/-! ## The paths `clean` leaves as they are -/

/-- The kept segments are read back from the path they make. -/
theorem splitOn_intercalate_keptSegments {q : Bytes} (h : keptSegments q ≠ []) :
    ([slash].intercalate (keptSegments q)).splitOn slash = keptSegments q :=
  List.splitOn_intercalate slash (fun _ hl => (plain_of_mem_keptSegments hl).2) h

/-- Appending the separator adds an empty last piece. -/
theorem splitOn_append_slash (q : Bytes) :
    (q ++ [slash]).splitOn slash = q.splitOn slash ++ [[]] := by
  simpa [List.splitOn_nil] using List.splitOn_append_cons_self (a := slash) q []

/-- If the segments behind the first slash are plain, they are the ones kept. -/
theorem keptSegments_of_plain {q : Bytes} (h : ∀ seg ∈ q.splitOn slash, Plain seg) :
    keptSegments q = q.splitOn slash := by
  simp [keptSegments, foldl_pushSegment_of_plain h]

/-- If they are plain up to an empty last one, the plain ones are kept. -/
theorem keptSegments_append_slash {q : Bytes} (h : ∀ seg ∈ q.splitOn slash, Plain seg) :
    keptSegments (q ++ [slash]) = q.splitOn slash := by
  simp [keptSegments, splitOn_append_slash, foldl_pushSegment_of_plain h, pushSegment_nil]

/-- A list of pieces that ends in an empty one is a shorter list and a separator. -/
theorem eq_append_slash_of_lastPiece {q : Bytes} (hlast : q.lastPiece slash = [])
    (hfull : q.fullPieces slash ≠ []) :
    ∃ q', q = q' ++ [slash] ∧ q'.splitOn slash = q.fullPieces slash := by
  have hsplit := List.splitOn_eq_fullPieces_append slash q
  rw [hlast] at hsplit
  refine ⟨[slash].intercalate (q.fullPieces slash), ?_, ?_⟩
  · rw [← List.intercalate_append_nil slash hfull, ← hsplit, List.intercalate_splitOn]
  · refine List.splitOn_intercalate slash (fun l hl => ?_) hfull
    exact List.not_mem_of_mem_splitOn (hsplit ▸ List.mem_append_left _ hl)

/-- Kept segments, with or without an empty one behind them, make a canonical path. -/
theorem canonical_of_splitOn {q : Bytes}
    (h : q.splitOn slash = keptSegments q ∨ q.splitOn slash = keptSegments q ++ [[]]) :
    Canonical (slash :: q) := by
  have hkept : ∀ seg ∈ keptSegments q, Plain seg := fun seg hs => (plain_of_mem_keptSegments hs).1
  rw [canonical_cons_iff]
  rcases h with hsplit | hsplit
  · rw [hsplit]
    exact ⟨fun seg hs => (hkept seg hs).2, fun seg hs => (hkept seg (List.dropLast_subset _ hs)).1⟩
  -- the empty segment is the last one
  · rw [hsplit]
    refine ⟨fun seg hs => ?_, fun seg hs => ?_⟩
    · rcases List.mem_append.mp hs with hs | hs
      · exact (hkept seg hs).2
      · rw [List.mem_singleton.mp hs]
        simp [dotSegment, dotDotSegment]
    · rw [List.dropLast_concat] at hs
      exact (hkept seg hs).1

/-- A canonical path is its own cleaning, up to a trailing slash. -/
theorem eq_clean_of_canonical {q : Bytes} (h : Canonical (slash :: q)) :
    slash :: q = clean (slash :: q) ∨ slash :: q = clean (slash :: q) ++ [slash] := by
  rw [clean_cons]
  rw [canonical_cons_iff] at h
  obtain ⟨hdots, hempty⟩ := h
  have hfull : ∀ seg ∈ q.fullPieces slash, Plain seg := fun seg hs =>
    ⟨hempty seg hs, hdots seg (List.dropLast_subset _ hs)⟩
  have hsplit := List.splitOn_eq_fullPieces_append slash q
  by_cases hlast : q.lastPiece slash = []
  · by_cases hnil : q.fullPieces slash = []
    · -- the path is a single slash
      left
      rw [hlast, hnil, List.nil_append] at hsplit
      have hq : q = [] := by rw [← @List.intercalate_splitOn _ q _ _ slash, hsplit]; rfl
      subst hq
      decide
    · right
      obtain ⟨q', hq, hq'⟩ := eq_append_slash_of_lastPiece hlast hnil
      rw [← hq'] at hfull
      rw [hq, keptSegments_append_slash hfull, List.intercalate_splitOn, List.cons_append]
  · left
    have hplain : ∀ seg ∈ q.splitOn slash, Plain seg := by
      intro seg hs
      refine ⟨?_, hdots seg hs⟩
      rw [hsplit] at hs
      rcases List.mem_append.mp hs with hs | hs
      · exact (hfull seg hs).1
      · rw [List.mem_singleton.mp hs]
        exact hlast
    rw [keptSegments_of_plain hplain, List.intercalate_splitOn]

/-- `path.Clean` leaves a rooted path as it is, or takes a trailing slash off it, exactly when the
path is canonical or consists of two slashes. -/
theorem eq_clean_iff (q : Bytes) :
    (slash :: q = clean (slash :: q) ∨ slash :: q = clean (slash :: q) ++ [slash]) ↔
      Canonical (slash :: q) ∨ q = [slash] := by
  constructor
  · rw [clean_cons]
    rintro (h | h)
    · -- the path is its own cleaning: its segments are the kept ones
      left
      have hq : q = [slash].intercalate (keptSegments q) := (List.cons.inj h).2
      by_cases hnil : keptSegments q = []
      · rw [hnil] at hq
        simp only [List.intercalate_nil] at hq
        subst hq
        decide
      · refine canonical_of_splitOn (.inl ?_)
        conv_lhs => rw [hq]
        exact splitOn_intercalate_keptSegments hnil
    · -- the path is its own cleaning and a slash: one empty segment follows the kept ones
      have hq : q = [slash].intercalate (keptSegments q) ++ [slash] := by simpa using h
      by_cases hnil : keptSegments q = []
      · right
        rw [hnil] at hq
        simpa using hq
      · refine .inl (canonical_of_splitOn (.inr ?_))
        conv_lhs => rw [hq]
        rw [splitOn_append_slash, splitOn_intercalate_keptSegments hnil]
  · rintro (hcanonical | rfl)
    · exact eq_clean_of_canonical hcanonical
    · right
      decide

end GoStd
