import OAuth2Monitoring.GoStd.Http

/-!
# Go's `http.ServeMux`

Patterns without wildcards: a path that ends in a slash stands for everything below it, any other
for itself alone, and a method may stand in front. A request is matched on its escaped path,
segment by segment, each segment being decoded by itself; a path that is not clean, or to which
only a slash is missing, is redirected.

## Main results

* `ServeMux.route_eq_handler`: a handler is only reached through a pattern of the mux that
  matches the request as it stands.
* `Pattern.matchesExactly_iff`, `Pattern.covers_iff`: what the two kinds of patterns match among
  the paths in their default encoding.
-/

namespace GoStd

/-- A pattern: a method, if any, and a path. -/
structure Pattern where
  method : Option Bytes
  path : Bytes

/-- Decode one segment; what does not decode stands for itself. -/
def pathUnescape (seg : Bytes) : Bytes := (unescape .path seg).getD seg

/-- The decoded segments of an escaped path. -/
def segments (escaped : Bytes) : List Bytes := (escaped.splitOn slash).map pathUnescape

/-- A pattern that ends in a slash. -/
def Pattern.subtree (pat : Pattern) : Bool := pat.path.getLast? = some slash

/-- The pattern stands for exactly these segments. -/
def Pattern.matchesExactly (pat : Pattern) (segs : List Bytes) : Bool :=
  !pat.subtree && pat.path.splitOn slash = segs

/-- The pattern stands for everything below a path, these segments among it. -/
def Pattern.covers (pat : Pattern) (segs : List Bytes) : Bool :=
  pat.subtree && (pat.path.dropLast.splitOn slash).isPrefixOf segs &&
    (pat.path.dropLast.splitOn slash).length < segs.length

/-- `http.ServeMux`: the registered patterns. -/
abbrev ServeMux (α : Type) := List (Pattern × α)

/-- What becomes of a request. -/
inductive Routed (α : Type)
  | handler (a : α)
  | redirect (path : Bytes)
  | methodNotAllowed (allow : List Bytes)
  | notFound
  | badRequest
  deriving DecidableEq

/-- `http.cleanPath`: a slash in front, clean, the trailing slash kept. -/
def cleanPath (p : Bytes) : Bytes :=
  let p := if p.head? = some slash then p else slash :: p
  let np := clean p
  if p.getLast? = some slash ∧ np ≠ [slash] then np ++ [slash] else np

namespace ServeMux

variable {α : Type}

/-- The longer of two patterns that cover a path is the more specific one. -/
def moreSpecific (best : Option (Pattern × α)) (r : Pattern × α) : Option (Pattern × α) :=
  match best with
  | none => some r
  | some b => if b.1.path.length < r.1.path.length then some r else some b

/-- The most specific pattern for these segments. -/
def matchPath (mux : ServeMux α) (segs : List Bytes) : Option (Pattern × α) :=
  (mux.find? (·.1.matchesExactly segs)).or
    ((mux.filter (·.1.covers segs)).foldl moreSpecific none)

/-- Patterns with the request's method come first, then `GET` patterns for `HEAD`, then those
without a method. -/
def matchMethodAndPath (mux : ServeMux α) (method escaped : Bytes) : Option (Pattern × α) :=
  let segs := segments escaped
  let withMethod := fun m => matchPath (mux.filter (·.1.method = m)) segs
  (withMethod (some method)).or <|
    (if method = ascii "HEAD" then withMethod (some (ascii "GET")) else none).or (withMethod none)

/-- Does a pattern that ends in a slash match exactly this path, which ends in one too? -/
def matchesSlash (mux : ServeMux α) (method escaped : Bytes) : Bool :=
  match mux.matchMethodAndPath method escaped with
  | none => false
  | some (pat, _) => (pat.path.splitOn slash).length = (segments escaped).length

/-- The methods other patterns admit for a path. -/
def allowedMethods (mux : ServeMux α) (escaped : Bytes) : List Bytes :=
  let segs := segments escaped
  (mux.filter fun r => r.1.matchesExactly segs || r.1.covers segs).flatMap fun r =>
    match r.1.method with
    | none => []
    | some m => if m = ascii "GET" then [m, ascii "HEAD"] else [m]

/-- The path a request is matched on: clean, but for `CONNECT`. -/
def matchedPath (method escaped : Bytes) : Bytes :=
  if method = ascii "CONNECT" then escaped else cleanPath escaped

/-- `ServeMux.Handler`. A request whose path is not the one it is matched on is redirected. -/
def route (mux : ServeMux α) (method : Bytes) (url : Url) : Routed α :=
  if url.target = ascii "*" then .badRequest
  else
    let escaped := escapedPath url.path url.rawPath
    let path := matchedPath method escaped
    match mux.matchMethodAndPath method path with
    | some (_, a) => if path = escaped then .handler a else .redirect path
    | none =>
      if path.getLast? ≠ some slash ∧ mux.matchesSlash method (path ++ [slash]) then
        .redirect (cleanPath url.path ++ [slash])
      else if path ≠ escaped then .redirect path
      else if mux.allowedMethods path = [] then .notFound
      else .methodNotAllowed (mux.allowedMethods path)

theorem moreSpecific_mem {l : List (Pattern × α)} {best : Option (Pattern × α)} {r : Pattern × α}
    (h : l.foldl moreSpecific best = some r) : r ∈ l ∨ best = some r := by
  induction l generalizing best with
  | nil => exact .inr h
  | cons x l ih =>
    rcases ih h with hmem | hbest
    · exact .inl (List.mem_cons_of_mem _ hmem)
    -- the pattern looked at takes the place of the best one so far, or does not
    · cases best with
      | none => exact .inl (by rw [← Option.some.inj hbest]; exact List.mem_cons_self)
      | some b =>
        simp only [moreSpecific] at hbest
        split at hbest
        · exact .inl (by rw [← Option.some.inj hbest]; exact List.mem_cons_self)
        · exact .inr hbest

/-- The pattern found is one of the mux, and it matches. -/
theorem mem_of_matchPath {mux : ServeMux α} {segs : List Bytes} {r : Pattern × α}
    (h : mux.matchPath segs = some r) :
    r ∈ mux ∧ (r.1.matchesExactly segs = true ∨ r.1.covers segs = true) := by
  unfold matchPath at h
  rcases Option.or_eq_some_iff.mp h with hex | ⟨-, hcov⟩
  · exact ⟨List.mem_of_find?_eq_some hex, .inl (by simpa using List.find?_some hex)⟩
  · rcases moreSpecific_mem hcov with hmem | hnone
    · obtain ⟨hmem, hc⟩ := List.mem_filter.mp hmem
      exact ⟨hmem, .inr hc⟩
    · cases hnone

/-- The pattern found is one of the mux that matches the path. -/
theorem mem_of_matchPath_filter {mux : ServeMux α} {p : Pattern × α → Bool} {segs : List Bytes}
    {r : Pattern × α} (h : ServeMux.matchPath (mux.filter p) segs = some r) :
    r ∈ mux ∧ p r = true ∧ (r.1.matchesExactly segs = true ∨ r.1.covers segs = true) := by
  obtain ⟨hmem, hpath⟩ := mem_of_matchPath h
  obtain ⟨hmem, hp⟩ := List.mem_filter.mp hmem
  exact ⟨hmem, hp, hpath⟩

/-- The pattern found matches the method and the path. -/
theorem mem_of_matchMethodAndPath {mux : ServeMux α} {method escaped : Bytes} {r : Pattern × α}
    (h : mux.matchMethodAndPath method escaped = some r) :
    r ∈ mux ∧
      (r.1.method = none ∨ r.1.method = some method ∨
        method = ascii "HEAD" ∧ r.1.method = some (ascii "GET")) ∧
      (r.1.matchesExactly (segments escaped) = true ∨ r.1.covers (segments escaped) = true) := by
  unfold matchMethodAndPath at h
  -- a pattern with the method, or one with GET for a HEAD, or one without a method
  rcases Option.or_eq_some_iff.mp h with h | ⟨-, h⟩
  · obtain ⟨hmem, hm, hpath⟩ := mem_of_matchPath_filter h
    exact ⟨hmem, .inr (.inl (by simpa using hm)), hpath⟩
  · rcases Option.or_eq_some_iff.mp h with h | ⟨-, h⟩
    · split at h
      · rename_i hhead
        obtain ⟨hmem, hm, hpath⟩ := mem_of_matchPath_filter h
        exact ⟨hmem, .inr (.inr ⟨hhead, by simpa using hm⟩), hpath⟩
      · cases h
    · obtain ⟨hmem, hm, hpath⟩ := mem_of_matchPath_filter h
      exact ⟨hmem, .inl (by simpa using hm), hpath⟩

/-- A handler is reached through a pattern that matches the request's own escaped path. -/
theorem route_eq_handler {mux : ServeMux α} {method : Bytes} {url : Url} {a : α}
    (h : mux.route method url = .handler a) :
    ∃ pat, mux.matchMethodAndPath method (escapedPath url.path url.rawPath) = some (pat, a) := by
  unfold route at h
  split at h
  · cases h
  · dsimp only at h
    generalize matchedPath method (escapedPath url.path url.rawPath) = path at h
    split at h
    · -- a pattern of another path than the request's is answered with a redirect
      rename_i pat b hmatch
      split at h
      · rename_i hpath
        cases h
        exact ⟨pat, hpath ▸ hmatch⟩
      · cases h
    · -- without a pattern the answer is one of the mux's own
      split at h
      · cases h
      · split at h
        · cases h
        · split at h <;> cases h

theorem foldl_moreSpecific_eq_none {l : List (Pattern × α)} {best : Option (Pattern × α)} :
    l.foldl moreSpecific best = none ↔ best = none ∧ l = [] := by
  induction l generalizing best with
  | nil => simp
  | cons r l ih =>
    have hsome : moreSpecific best r ≠ none := by
      unfold moreSpecific
      cases best with
      | none => exact Option.some_ne_none _
      | some b =>
        dsimp only
        split <;> exact Option.some_ne_none _
    rw [List.foldl_cons, ih]
    simp [hsome]

/-- No pattern is found when none matches. -/
theorem matchPath_eq_none_iff {mux : ServeMux α} {segs : List Bytes} :
    mux.matchPath segs = none ↔
      ∀ r ∈ mux, r.1.matchesExactly segs = false ∧ r.1.covers segs = false := by
  rw [matchPath, Option.or_eq_none_iff, List.find?_eq_none, foldl_moreSpecific_eq_none,
    List.filter_eq_nil_iff]
  simp only [Bool.not_eq_true, true_and]
  exact ⟨fun h r hr => ⟨h.1 r hr, h.2 r hr⟩, fun h => ⟨fun r hr => (h r hr).1, fun r hr =>
    (h r hr).2⟩⟩

/-- Nor when none matches whose method is admitted. -/
theorem matchMethodAndPath_eq_none_iff {mux : ServeMux α} {method escaped : Bytes} :
    mux.matchMethodAndPath method escaped = none ↔
      ∀ r ∈ mux, (r.1.method = none ∨ r.1.method = some method ∨
        method = ascii "HEAD" ∧ r.1.method = some (ascii "GET")) →
          r.1.matchesExactly (segments escaped) = false ∧
            r.1.covers (segments escaped) = false := by
  have hfilter : ∀ m, matchPath (mux.filter (·.1.method = m)) (segments escaped) = none ↔
      ∀ r ∈ mux, r.1.method = m → r.1.matchesExactly (segments escaped) = false ∧
        r.1.covers (segments escaped) = false := by
    intro m
    rw [matchPath_eq_none_iff]
    simp only [List.mem_filter, decide_eq_true_eq, and_imp]
  rw [matchMethodAndPath, Option.or_eq_none_iff, Option.or_eq_none_iff, hfilter, hfilter]
  constructor
  · rintro ⟨hmethod, hhead, hany⟩ r hr (h | h | ⟨h, hget⟩)
    · exact hany r hr h
    · exact hmethod r hr h
    · rw [if_pos h, hfilter] at hhead
      exact hhead r hr hget
  · intro h
    refine ⟨fun r hr hm => h r hr (.inr (.inl hm)), ?_, fun r hr hm => h r hr (.inl hm)⟩
    split
    · rename_i hhead
      exact (hfilter _).mpr fun r hr hm => h r hr (.inr (.inr ⟨hhead, hm⟩))
    · rfl

end ServeMux

/-! ## Paths in their default encoding -/

/-- An encoded byte is no slash unless it was one. -/
theorem slash_not_mem_escapeByte {c : UInt8} (h : c ≠ slash) : slash ∉ escapeByte .path c := by
  unfold escapeByte
  split
  · rw [if_neg (by simp)]
    have hhex : ∀ n < 16, upperhex n ≠ slash := by decide
    have hhi : c.toNat / 16 < 16 := by have := c.toNat_lt; omega
    have hlo : c.toNat % 16 < 16 := Nat.mod_lt _ (by decide)
    simp only [List.mem_cons, List.not_mem_nil, or_false, not_or]
    exact ⟨by decide, (hhex _ hhi).symm, (hhex _ hlo).symm⟩
  · simpa using Ne.symm h

/-- Encoding keeps the slashes and makes no new ones. -/
theorem splitOn_escape (p : Bytes) :
    (escape .path p).splitOn slash = (p.splitOn slash).map (escape .path) := by
  induction p with
  | nil => simp [escape, List.splitOn_nil]
  | cons c p ih =>
    rw [escape, List.flatMap_cons, ← escape]
    -- a slash is not escaped, and no other byte becomes one
    by_cases hc : c = slash
    · subst hc
      have hesc : escapeByte .path slash = [slash] := by decide
      rw [hesc, List.singleton_append, List.splitOn_cons_self, List.splitOn_cons_self, ih]
      rfl
    · rw [List.splitOn_append_of_not_mem (slash_not_mem_escapeByte hc), ih,
        List.splitOn_cons_of_ne hc]
      obtain ⟨s, rest, hs⟩ := List.exists_cons_of_ne_nil (List.splitOn_ne_nil slash p)
      simp [hs, escape]

/-- The segments of a path in its default encoding are those of the decoded path. -/
theorem segments_escape (p : Bytes) : segments (escape .path p) = p.splitOn slash := by
  rw [segments, splitOn_escape, List.map_map]
  refine (List.map_congr_left fun seg _ => ?_).trans (List.map_id _)
  simp [pathUnescape, unescape_escape]

/-- The segments of an escaped path are those of the path. -/
theorem segments_escapedPath (p : Bytes) : segments (escapedPath p []) = p.splitOn slash := by
  by_cases hp : p = ascii "*"
  · subst hp
    decide
  · rw [escapedPath_of_rawPath_eq_nil hp, segments_escape]

/-- The encoding of a canonical path is canonical. -/
theorem canonical_escape {p : Bytes} (h : Canonical p) : Canonical (escape .path p) := by
  have hinj : ∀ {a b : Bytes}, escape .path a = escape .path b → a = b := by
    intro a b hab
    have hdec := unescape_escape .path a
    rw [hab, unescape_escape] at hdec
    exact (Option.some.inj hdec).symm
  have hdot : escape .path dotSegment = dotSegment := by decide
  have hdots : escape .path dotDotSegment = dotDotSegment := by decide
  rw [Canonical, splitOn_escape]
  constructor
  · intro seg hseg
    obtain ⟨s, hs, rfl⟩ := List.mem_map.mp hseg
    obtain ⟨hone, htwo⟩ := h.1 s hs
    exact ⟨fun heq => hone (hinj (heq.trans hdot.symm)),
      fun heq => htwo (hinj (heq.trans hdots.symm))⟩
  · intro seg hseg
    rw [← List.map_tail, ← List.map_dropLast] at hseg
    obtain ⟨s, hs, rfl⟩ := List.mem_map.mp hseg
    exact fun heq => h.2 s hs (hinj (heq.trans rfl))

/-- A clean path ends in a slash only if it is one. -/
theorem clean_getLast_ne {q : Bytes} (h : clean (slash :: q) ≠ [slash]) :
    (clean (slash :: q)).getLast? ≠ some slash := by
  rw [clean_cons] at h ⊢
  intro hlast
  have hkept : keptSegments q ≠ [] := by
    intro hnil
    rw [hnil] at h
    exact h rfl
  have hne : [slash].intercalate (keptSegments q) ≠ [] := by
    intro hnil
    have hsplit := splitOn_intercalate_keptSegments hkept
    rw [hnil, List.splitOn_nil] at hsplit
    have hmem : [] ∈ keptSegments q := hsplit ▸ List.mem_singleton_self _
    exact (plain_of_mem_keptSegments hmem).1.1 rfl
  rw [List.getLast?_cons_of_ne_nil hne] at hlast
  obtain ⟨front, hfront⟩ := List.getLast?_eq_some_iff.mp hlast
  -- the segment behind a slash at the end is empty, and no empty segment is kept
  have hsplit := splitOn_intercalate_keptSegments hkept
  rw [hfront, splitOn_append_slash] at hsplit
  have hmem : [] ∈ keptSegments q := hsplit ▸ List.mem_append_right _ (List.mem_singleton_self _)
  exact (plain_of_mem_keptSegments hmem).1.1 rfl

/-- The mux leaves a canonical path as it is. -/
theorem cleanPath_of_canonical {q : Bytes} (h : Canonical (slash :: q)) :
    cleanPath (slash :: q) = slash :: q := by
  have hhead : cleanPath (slash :: q) =
      if (slash :: q).getLast? = some slash ∧ clean (slash :: q) ≠ [slash] then
        clean (slash :: q) ++ [slash] else clean (slash :: q) := by
    simp [cleanPath]
  rw [hhead]
  rcases eq_clean_of_canonical h with hclean | hclean
  · by_cases hroot : clean (slash :: q) = [slash]
    · rw [if_neg fun hc => hc.2 hroot, ← hclean]
    · rw [if_neg fun hc => clean_getLast_ne hroot (hclean ▸ hc.1), ← hclean]
  · have hroot : clean (slash :: q) ≠ [slash] := by
      intro hroot
      rw [hroot] at hclean
      rw [hclean] at h
      exact absurd h (by decide)
    have hlast : (slash :: q).getLast? = some slash := by
      rw [hclean]
      exact List.getLast?_concat ..
    rw [if_pos ⟨hlast, hroot⟩, ← hclean]

/-- A pattern without a trailing slash matches its own path only. -/
theorem Pattern.matchesExactly_iff {pat : Pattern} {p : Bytes} :
    pat.matchesExactly (p.splitOn slash) = true ↔ pat.subtree = false ∧ p = pat.path := by
  rw [matchesExactly, Bool.and_eq_true, decide_eq_true_iff, List.splitOn_inj,
    Bool.not_eq_true', @eq_comm _ pat.path]

/-- A subtree covers the paths that begin with it. -/
theorem Pattern.covers_iff {pat : Pattern} {p : Bytes} :
    pat.covers (p.splitOn slash) = true ↔ pat.subtree = true ∧ pat.path <+: p := by
  simp only [covers, Bool.and_eq_true, List.isPrefixOf_iff_prefix, decide_eq_true_eq, and_assoc,
    List.splitOn_prefix_iff]
  refine and_congr_right fun hsub => ?_
  obtain ⟨front, hfront⟩ := List.getLast?_eq_some_iff.mp (by simpa [subtree] using hsub)
  rw [hfront, List.dropLast_concat]

end GoStd
