import Mathlib.Tactic.IntervalCases
import OAuth2Monitoring.GoStd.Url

/-!
# Queries read back

An encoder writes a component of a query without the separators `&`, `;` and `=`, and such that
decoding gives the component back. Pairs written by an encoder are parsed as they were, whoever
wrote them: `Values.encode` of Go is one case, in the order of the keys.

## Main results

* `unescape_percentEncode`: percent-encoding, whatever bytes it escapes, is undone by decoding.
* `parseQuery_encodePairs`: pairs written by an encoder are read back.
* `get_parseQuery_encode`: after `Values.encode` each key has its value.
-/

namespace GoStd

/-- What holds of the bytes of a text one by one. -/
theorem forall_mem_of_all {p : UInt8 → Prop} [DecidablePred p] {s : Bytes}
    (h : s.all fun c => p c) : ∀ c ∈ s, p c := by
  simpa using h

/-! ## Percent-encoding with any set of bytes -/

/-- A byte as a percent sign with its two digits. -/
def percentTriple (c : UInt8) : Bytes := [37, upperhex (c.toNat / 16), upperhex (c.toNat % 16)]

/-- The bytes that `escapes` names stand as triples; a blank may stand as a plus. -/
def percentByte (blankAsPlus : Bool) (escapes : UInt8 → Bool) (c : UInt8) : Bytes :=
  if blankAsPlus ∧ c = 32 then [43] else if escapes c then percentTriple c else [c]

/-- Percent-encoding of the bytes to be escaped. -/
def percentEncode (blankAsPlus : Bool) (escapes : UInt8 → Bool) (s : Bytes) : Bytes :=
  s.flatMap (percentByte blankAsPlus escapes)

section Percent

variable {mode : Encoding} {blankAsPlus : Bool} {escapes : UInt8 → Bool}

/-- A triple is decoded to its byte. -/
theorem unescape_percentTriple_append (c : UInt8) (s : Bytes) :
    unescape mode (percentTriple c ++ s) = (unescape mode s).map (c :: ·) := by
  have hhi : c.toNat / 16 < 16 := by have := c.toNat_lt; omega
  have hlo : c.toNat % 16 < 16 := Nat.mod_lt _ (by decide)
  rw [percentTriple]
  conv_lhs => unfold unescape
  simp only [List.cons_append, List.nil_append, if_true, unhex_upperhex hhi, unhex_upperhex hlo,
    Option.bind_eq_bind, Option.bind_some, toUInt8_div_mod]
  cases unescape mode s <;> rfl

/-- Decoding undoes the encoding, when `%` is among the bytes escaped, and `+` where it stands for
a blank. -/
theorem unescape_percentEncode (h37 : escapes 37 = true)
    (h43 : mode = .queryComponent → escapes 43 = true)
    (hplus : blankAsPlus = true → mode = .queryComponent) (s : Bytes) :
    unescape mode (percentEncode blankAsPlus escapes s) = some s := by
  induction s with
  | nil => rw [percentEncode, List.flatMap_nil, unescape_nil]
  | cons c s ih =>
    have hbyte : unescape mode (percentByte blankAsPlus escapes c ++
        percentEncode blankAsPlus escapes s) = some (c :: s) := by
      unfold percentByte
      split
      · -- a blank that stands as a plus
        rename_i h
        obtain ⟨hb, rfl⟩ := h
        rw [hplus hb] at ih ⊢
        conv_lhs => unfold unescape
        simp [ih]
      · split
        · rw [unescape_percentTriple_append, ih, Option.map_some]
        · rename_i hesc
          rw [List.singleton_append, unescape_cons_of_ne, ih, Option.map_some]
          · rintro rfl
            exact hesc h37
          · rintro rfl
            cases mode with
            | path => rfl
            | queryComponent => exact absurd (h43 rfl) hesc
    rw [percentEncode, List.flatMap_cons, ← percentEncode, hbyte]

/-- The digits of an escape are no separators. -/
theorem upperhex_ne {n : ℕ} (h : n < 16) : upperhex n ≠ 38 ∧ upperhex n ≠ 59 ∧ upperhex n ≠ 61 := by
  interval_cases n <;> decide

/-- An encoded text has no separator of a query. -/
theorem mem_percentEncode (h38 : escapes 38 = true) (h59 : escapes 59 = true)
    (h61 : escapes 61 = true) {s : Bytes} {x : UInt8}
    (hx : x ∈ percentEncode blankAsPlus escapes s) : x ≠ 38 ∧ x ≠ 59 ∧ x ≠ 61 := by
  obtain ⟨c, -, hc⟩ := List.mem_flatMap.mp hx
  unfold percentByte at hc
  split at hc
  · rw [List.mem_singleton.mp hc]
    decide
  · split at hc
    · have hhi : c.toNat / 16 < 16 := by have := c.toNat_lt; omega
      have hlo : c.toNat % 16 < 16 := Nat.mod_lt _ (by decide)
      simp only [percentTriple, List.mem_cons, List.not_mem_nil, or_false] at hc
      rcases hc with rfl | rfl | rfl
      · decide
      · exact upperhex_ne hhi
      · exact upperhex_ne hlo
    · -- a separator would have been escaped
      rename_i hesc
      rw [List.mem_singleton.mp hc]
      refine ⟨?_, ?_, ?_⟩ <;> rintro rfl <;> contradiction

/-- What is decoded behind a text that stands for itself. -/
theorem unescape_append {front : Bytes} (hfront : ∀ c ∈ front, c ≠ 37 ∧ c ≠ 43) (s : Bytes) :
    unescape mode (front ++ s) = (unescape mode s).map (front ++ ·) := by
  induction front with
  | nil => simp
  | cons c front ih =>
    obtain ⟨⟨h37, h43⟩, hrest⟩ := List.forall_mem_cons.mp hfront
    rw [List.cons_append, unescape_cons_of_ne h37 fun h => absurd h h43, ih hrest, Option.map_map]
    rfl

/-- Two encodings of a text are the same when they escape the same bytes of it. -/
theorem percentEncode_eq_iff {escapes' : UInt8 → Bool} (h37 : escapes 37 = true)
    (h37' : escapes' 37 = true) {s : Bytes} :
    percentEncode false escapes s = percentEncode false escapes' s ↔
      ∀ c ∈ s, escapes c = escapes' c := by
  have hcons : ∀ (f : UInt8 → Bool) c (l : Bytes), percentEncode false f (c :: l) =
      (if f c then percentTriple c else [c]) ++ percentEncode false f l := by
    intro f c l
    have hbyte : percentByte false f c = if f c then percentTriple c else [c] := if_neg (by simp)
    rw [percentEncode, List.flatMap_cons, hbyte, ← percentEncode]
  -- a percent sign begins a triple, and is escaped itself
  have hne : ∀ {f : UInt8 → Bool} {c : UInt8} {l l' : Bytes}, f 37 = true → f c = false →
      percentTriple c ++ l ≠ [c] ++ l' := by
    intro f c l l' hf hc h
    have hc37 : (37 : UInt8) = c := (List.cons.inj h).1
    rw [← hc37, hf] at hc
    cases hc
  induction s with
  | nil => exact iff_of_true rfl (by simp)
  | cons c s ih =>
    rw [hcons, hcons, List.forall_mem_cons]
    cases hc : escapes c <;> cases hc' : escapes' c
    · simpa using ih
    · simpa using fun h => hne h37 hc h.symm
    · simpa using fun h => hne h37' hc' h
    · simpa using ih

end Percent

/-- Go's escaping is percent-encoding of the bytes it names. -/
theorem escape_eq_percentEncode (mode : Encoding) :
    escape mode = percentEncode (mode = .queryComponent) (shouldEscape mode) := by
  funext s
  refine List.flatMap_congr fun c _ => ?_
  unfold escapeByte percentByte
  by_cases hblank : c = 32
  · subst hblank
    cases mode <;> rfl
  · simp [hblank, percentTriple]

/-! ## Pairs -/

/-- What writes a component of a query so that it is read back. -/
structure QueryEncoder (enc : Bytes → Bytes) : Prop where
  decodes : ∀ s, unescape .queryComponent (enc s) = some s
  no_separator : ∀ s, ∀ x ∈ enc s, x ≠ 38 ∧ x ≠ 59 ∧ x ≠ 61

/-- Percent-encoding that escapes the separators is an encoder of queries. -/
theorem queryEncoder_percentEncode {blankAsPlus : Bool} {escapes : UInt8 → Bool}
    (h37 : escapes 37 = true) (h43 : escapes 43 = true) (h38 : escapes 38 = true)
    (h59 : escapes 59 = true) (h61 : escapes 61 = true) :
    QueryEncoder (percentEncode blankAsPlus escapes) where
  decodes := unescape_percentEncode h37 (fun _ => h43) fun _ => rfl
  no_separator _ _ hx := mem_percentEncode h38 h59 h61 hx

theorem queryEncoder_escape : QueryEncoder (escape .queryComponent) := by
  rw [escape_eq_percentEncode]
  exact queryEncoder_percentEncode (by decide) (by decide) (by decide) (by decide) (by decide)

/-- A pair as it stands in a query. -/
def encodePair (enc : Bytes → Bytes) (kv : Bytes × Bytes) : Bytes := enc kv.1 ++ 61 :: enc kv.2

/-- The pairs of a query, an ampersand between them. -/
def encodePairs (enc : Bytes → Bytes) (v : Values) : Bytes :=
  [(38 : UInt8)].intercalate (v.map (encodePair enc))

section Pairs

variable {enc : Bytes → Bytes} (henc : QueryEncoder enc)
include henc

/-- A pair that was encoded is read back. -/
theorem parsePair_encodePair (kv : Bytes × Bytes) : parsePair (encodePair enc kv) = some kv := by
  have hkey : ∀ x ∈ enc kv.1, decide (x ≠ 61) = true := fun x hx =>
    decide_eq_true (henc.no_separator _ x hx).2.2
  -- the first equals sign is the one between the key and the value
  have htake : (encodePair enc kv).takeWhile (· ≠ 61) = enc kv.1 := by
    rw [encodePair, List.takeWhile_append_of_pos hkey]
    simp
  have hdrop : ((encodePair enc kv).dropWhile (· ≠ 61)).drop 1 = enc kv.2 := by
    rw [encodePair, List.dropWhile_append_of_pos hkey]
    simp
  have hpiece : ¬(encodePair enc kv = [] ∨ 59 ∈ encodePair enc kv) := by
    rintro (hnil | hsemi)
    · simp [encodePair] at hnil
    · rcases List.mem_append.mp hsemi with h | h
      · exact (henc.no_separator _ _ h).2.1 rfl
      · rcases List.mem_cons.mp h with h | h
        · cases h
        · exact (henc.no_separator _ _ h).2.1 rfl
  rw [parsePair, if_neg hpiece, htake, hdrop, henc.decodes, henc.decodes]
  rfl

theorem not_mem_encodePair (kv : Bytes × Bytes) : 38 ∉ encodePair enc kv := by
  intro h
  rcases List.mem_append.mp h with h | h
  · exact (henc.no_separator _ _ h).1 rfl
  · rcases List.mem_cons.mp h with h | h
    · cases h
    · exact (henc.no_separator _ _ h).1 rfl

/-- The pairs of a query are read back one by one. -/
theorem parsePair_pieces (v : Values) : (v.map (encodePair enc)).filterMap parsePair = v := by
  induction v with
  | nil => rfl
  | cons kv v ih => rw [List.map_cons, List.filterMap_cons, parsePair_encodePair henc, ih]

/-- Pairs written by an encoder are read back, in their order. -/
theorem parseQuery_encodePairs (v : Values) : parseQuery (encodePairs enc v) = v := by
  rw [encodePairs, parseQuery]
  cases v with
  | nil => rfl
  | cons kv rest =>
    rw [List.splitOn_intercalate 38 _ (by simp)]
    · exact parsePair_pieces henc (kv :: rest)
    · intro piece hpiece
      obtain ⟨p, -, rfl⟩ := List.mem_map.mp hpiece
      exact not_mem_encodePair henc p

end Pairs

/-! ## Keys and their values -/

/-- The order `Values.encode` writes the pairs in. -/
def Values.sorted (v : Values) : Values := v.mergeSort fun a b => a.1 ≤ b.1

/-- Parsing undoes encoding, up to the order of the pairs. -/
theorem parseQuery_encode (v : Values) : parseQuery v.encode = v.sorted :=
  parseQuery_encodePairs queryEncoder_escape v.sorted

theorem sorted_perm (v : Values) : v.sorted.Perm v := List.mergeSort_perm _ _

/-- The keys of the pairs differ. -/
def Values.Distinct (v : Values) : Prop := (v.map Prod.fst).Nodup

instance (v : Values) : Decidable v.Distinct := inferInstanceAs (Decidable (List.Nodup _))

/-- A key of a list with different keys has its value. -/
theorem Values.get_of_mem {v : Values} (hv : v.Distinct) {key value : Bytes}
    (h : (key, value) ∈ v) : v.get key = value := by
  induction v with
  | nil => cases h
  | cons kv v ih =>
    obtain ⟨hnot, hrest⟩ := List.nodup_cons.mp hv
    rcases List.mem_cons.mp h with rfl | h
    · simp [get]
    · have hne : kv.1 ≠ key := by
        rintro rfl
        exact hnot (List.mem_map.mpr ⟨(kv.1, value), h, rfl⟩)
      have hget := ih hrest h
      unfold get at hget ⊢
      rwa [List.find?_cons_of_neg (by simpa using hne)]

theorem Values.get_of_not_mem {v : Values} {key : Bytes} (h : key ∉ v.map Prod.fst) :
    v.get key = [] := by
  have hnone : v.find? (·.1 = key) = none := by
    refine List.find?_eq_none.mpr fun kv hkv => ?_
    rw [decide_eq_true_eq]
    rintro rfl
    exact h (List.mem_map_of_mem hkv)
  rw [get, hnone]
  rfl

/-- The order of the pairs does not matter when the keys differ. -/
theorem Values.get_perm {v w : Values} (hperm : v.Perm w) (hv : v.Distinct) (key : Bytes) :
    v.get key = w.get key := by
  have hkeys := hperm.map Prod.fst
  by_cases hmem : key ∈ v.map Prod.fst
  · obtain ⟨kv, hkv, rfl⟩ := List.mem_map.mp hmem
    rw [get_of_mem hv hkv, get_of_mem (hkeys.nodup_iff.mp hv) (hperm.mem_iff.mp hkv)]
  · rw [get_of_not_mem hmem, get_of_not_mem fun h => hmem (hkeys.mem_iff.mpr h)]

/-- Each key of an encoded query has its value again. -/
theorem get_parseQuery_encode {v : Values} (hv : v.Distinct) (key : Bytes) :
    (parseQuery v.encode).get key = v.get key := by
  rw [parseQuery_encode]
  exact Values.get_perm (sorted_perm v)
    (((sorted_perm v).map Prod.fst).nodup_iff.mpr hv) key

/-- Setting a key that is not there puts the pair at the end. -/
theorem Values.set_of_not_mem {v : Values} {key : Bytes} (h : key ∉ v.map Prod.fst)
    (value : Bytes) : v.set key value = v ++ [(key, value)] := by
  have hfilter : v.filter (·.1 ≠ key) = v := by
    refine List.filter_eq_self.mpr fun kv hkv => ?_
    simp only [ne_eq, decide_not, Bool.not_eq_true', decide_eq_false_iff_not]
    rintro rfl
    exact h (List.mem_map_of_mem hkv)
  rw [set, hfilter]

/-- The keys stay different when a new one is set. -/
theorem Values.Distinct.set {v : Values} (hv : v.Distinct) {key : Bytes}
    (h : key ∉ v.map Prod.fst) (value : Bytes) : (v.set key value).Distinct := by
  unfold Distinct
  rw [set_of_not_mem h, List.map_append]
  refine List.nodup_append.mpr ⟨hv, by simp, ?_⟩
  rintro k hk _ hkey rfl
  have hkk : k = key := by simpa using hkey
  exact h (hkk ▸ hk)

/-! ## ASCII -/

theorem upperhex_ascii {n : ℕ} (h : n < 16) : upperhex n < 128 := by
  have hdigits : ∀ n < 16, upperhex n < 128 := by decide
  exact hdigits n h

/-- Every byte beyond ASCII is escaped. -/
theorem ascii_of_not_shouldEscape {mode : Encoding} {c : UInt8}
    (h : ¬shouldEscape mode c = true) : c < 128 := by
  have hmarks : (ascii "-_.~").all (· < 128) = true := by decide
  have hreserved : (ascii "$&+,/:;=?@").all (· < 128) = true := by decide
  unfold shouldEscape at h
  split at h
  · rename_i halnum
    rcases halnum with ⟨-, hle⟩ | ⟨-, hle⟩ | ⟨-, hle⟩ <;> exact UInt8.lt_of_le_of_lt hle (by decide)
  · split at h
    · exact of_decide_eq_true (List.all_eq_true.mp hmarks c ‹_›)
    · split at h
      · exact of_decide_eq_true (List.all_eq_true.mp hreserved c ‹_›)
      · exact absurd rfl h

/-- So is every encoded byte. -/
theorem escapeByte_ascii (mode : Encoding) (c : UInt8) : ∀ b ∈ escapeByte mode c, b < 128 := by
  have hhi : c.toNat / 16 < 16 := by have := c.toNat_lt; omega
  have hlo : c.toNat % 16 < 16 := Nat.mod_lt _ (by decide)
  intro b hb
  unfold escapeByte at hb
  split at hb
  · split at hb
    · rw [List.mem_singleton.mp hb]
      decide
    · simp only [List.mem_cons, List.not_mem_nil, or_false] at hb
      rcases hb with rfl | rfl | rfl
      · decide
      · exact upperhex_ascii hhi
      · exact upperhex_ascii hlo
  · rw [List.mem_singleton.mp hb]
    exact ascii_of_not_shouldEscape ‹_›

/-- An encoded text is one of ASCII. -/
theorem escape_ascii (mode : Encoding) (s : Bytes) : ∀ c ∈ escape mode s, c < 128 := by
  intro c hc
  obtain ⟨b, -, hb⟩ := List.mem_flatMap.mp hc
  exact escapeByte_ascii mode b c hb

/-- So is an encoded query. -/
theorem encode_ascii (v : Values) : ∀ c ∈ v.encode, c < 128 := by
  intro c hc
  -- a byte is one of the separators, or of an encoded key or value
  rcases List.mem_of_mem_intercalate hc with rfl | ⟨pair, hpair, hmem⟩
  · decide
  · obtain ⟨kv, -, rfl⟩ := List.mem_map.mp hpair
    rcases List.mem_append.mp hmem with hkey | hvalue
    · exact escape_ascii _ _ c hkey
    · rcases List.mem_cons.mp hvalue with rfl | hvalue
      · decide
      · exact escape_ascii _ _ c hvalue

end GoStd
