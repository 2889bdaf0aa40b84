import OAuth2Monitoring.GoStd.Http
import OAuth2Monitoring.GoStd.Query
import OAuth2Monitoring.JsStd.Basic

/-!
# URIs written by JavaScript

`encodeURIComponent`, and what a browser's URL parser makes of a path and a query. What they write
is ASCII, and given in bytes.

## Main results

* `encodeURIComponent_eq`: percent-encoding of the text in UTF-8; half of a surrogate pair throws.
* `sentPath_uriEncoded`: an encoded segment is sent as it is, unless it stands for a directory.
* `parseQuery_sentQuery`: an encoded parameter is read back as the text in UTF-8.
-/

namespace JsStd

open GoStd

/-! ## Characters -/

/-- A code unit by itself: no character when it is half of a pair. -/
def unitChar (c : UInt16) : Option Char :=
  if 0xD800 ≤ c ∧ c ≤ 0xDFFF then none else some (Char.ofNat c.toNat)

/-- The character above the basic plane that two code units stand for. -/
def pairChar (c t : UInt16) : Char :=
  Char.ofNat (0x10000 + (c.toNat - 0xD800) * 0x400 + (t.toNat - 0xDC00))

/-- Two code units that belong together. -/
def isPair (c t : UInt16) : Bool := 0xD800 ≤ c ∧ c ≤ 0xDBFF ∧ 0xDC00 ≤ t ∧ t ≤ 0xDFFF

/-- The characters of a text; `none` is half of a pair by itself. -/
def characters : Text → List (Option Char)
  | [] => []
  | [c] => [unitChar c]
  | c :: t :: rest =>
    if isPair c t then some (pairChar c t) :: characters rest
    else unitChar c :: characters (t :: rest)

/-- The text in UTF-8, if no half of a pair is by itself. -/
def utf8 (s : Text) : Option Bytes :=
  ((characters s).mapM id).map fun chars => chars.flatMap String.utf8EncodeChar

/-! ## `encodeURIComponent` -/

/-- Letters, digits and `-_.!~*'()` stand for themselves. -/
def uriUnescaped (c : UInt8) : Bool :=
  (97 ≤ c ∧ c ≤ 122) ∨ (65 ≤ c ∧ c ≤ 90) ∨ (48 ≤ c ∧ c ≤ 57) ∨ c ∈ ascii "-_.!~*'()"

/-- A character that does not stand for itself is written as the triples of its octets. -/
def encodeChar (c : Char) : Bytes :=
  if c.toNat < 128 ∧ uriUnescaped c.toNat.toUInt8 then [c.toNat.toUInt8]
  else (String.utf8EncodeChar c).flatMap percentTriple

/-- Encode the characters in turn; one that is none throws. -/
def encodeChars : List (Option Char) → Option Bytes
  | [] => some []
  | none :: _ => none
  | some c :: rest => (encodeChars rest).map (encodeChar c ++ ·)

/-- `encodeURIComponent`; `none` is a `URIError`. -/
def encodeURIComponent (s : Text) : Option Bytes := encodeChars (characters s)

/-- The octets of a character are one ASCII byte, or none below 128. -/
theorem utf8EncodeChar_cases (c : Char) :
    c.toNat < 128 ∧ String.utf8EncodeChar c = [c.toNat.toUInt8] ∨
      128 ≤ c.toNat ∧ ∀ b ∈ String.utf8EncodeChar c, 128 ≤ b.toNat := by
  have hval : c.val.toNat = c.toNat := rfl
  by_cases h : c.toNat < 128
  · left
    refine ⟨h, ?_⟩
    rw [String.utf8EncodeChar, hval, if_pos (by omega)]
  · right
    refine ⟨by omega, fun b hb => ?_⟩
    rw [String.utf8EncodeChar, hval, if_neg (by omega)] at hb
    -- the octets of a longer encoding have their highest bit set
    split at hb
    · simp only [List.mem_cons, List.not_mem_nil, or_false] at hb
      rcases hb with rfl | rfl <;> simp only [UInt8.toNat_ofNat'] <;> omega
    · split at hb
      · simp only [List.mem_cons, List.not_mem_nil, or_false] at hb
        rcases hb with rfl | rfl | rfl <;> simp only [UInt8.toNat_ofNat'] <;> omega
      · simp only [List.mem_cons, List.not_mem_nil, or_false] at hb
        rcases hb with rfl | rfl | rfl | rfl <;> simp only [UInt8.toNat_ofNat'] <;> omega

/-- The bytes that stand for themselves are ASCII. -/
theorem uriUnescaped_iff (c : UInt8) : uriUnescaped c = true ↔
    97 ≤ c.toNat ∧ c.toNat ≤ 122 ∨ 65 ≤ c.toNat ∧ c.toNat ≤ 90 ∨ 48 ≤ c.toNat ∧ c.toNat ≤ 57 ∨
      c.toNat ∈ [45, 95, 46, 33, 126, 42, 39, 40, 41] := by
  have hmarks : ascii "-_.!~*'()" = [45, 95, 46, 33, 126, 42, 39, 40, 41] := by decide
  simp [uriUnescaped, hmarks, UInt8.le_iff_toNat_le, ← UInt8.toNat_inj]

/-- The bytes `encodeURIComponent` escapes. -/
def uriEscaped (c : UInt8) : Bool := !uriUnescaped c

/-- A character is encoded byte by byte. -/
theorem encodeChar_eq (c : Char) :
    encodeChar c = percentEncode false uriEscaped (String.utf8EncodeChar c) := by
  have hbyte : ∀ b : UInt8, percentByte false uriEscaped b =
      if uriUnescaped b then [b] else percentTriple b := by
    intro b
    by_cases h : uriUnescaped b = true <;> simp [percentByte, uriEscaped, h]
  rcases utf8EncodeChar_cases c with ⟨hc, henc⟩ | ⟨hc, henc⟩
  · simp [encodeChar, henc, percentEncode, hbyte, hc]
  · rw [encodeChar, if_neg (by omega)]
    refine List.flatMap_congr fun b hb => ?_
    -- a byte that is not ASCII is escaped
    have hb : ¬uriUnescaped b = true := by
      rw [uriUnescaped_iff]
      have := henc b hb
      simp only [List.mem_cons, List.not_mem_nil, or_false]
      omega
    rw [hbyte, if_neg hb]

/-- `encodeURIComponent` is percent-encoding of the text in UTF-8. -/
theorem encodeURIComponent_eq (s : Text) :
    encodeURIComponent s = (utf8 s).map (percentEncode false uriEscaped) := by
  have hchars : ∀ l, encodeChars l = (l.mapM id).map fun chars =>
      percentEncode false uriEscaped (chars.flatMap String.utf8EncodeChar) := by
    intro l
    induction l with
    | nil => rfl
    | cons c l ih =>
      cases c with
      | none => rfl
      | some c =>
        rw [encodeChars, ih, List.mapM_cons]
        cases l.mapM id with
        | none => rfl
        | some chars => simp [encodeChar_eq, percentEncode, List.flatMap_append]
  rw [encodeURIComponent, hchars, utf8, Option.map_map]
  rfl

/-! ## The parser of the browser -/

/-- The bytes a URL parser escapes in the query of an http URL. -/
def queryEscaped (c : UInt8) : Bool := c ≤ 32 ∨ 127 ≤ c ∨ c ∈ ascii "\"#<>'"

/-- The path of an address, and the query behind it. -/
def addressPath (address : Bytes) : Bytes := address.takeWhile fun c => c ≠ 63 ∧ c ≠ 35

/-- The query of an address. -/
def addressQuery (address : Bytes) : Bytes :=
  match address.dropWhile fun c => c ≠ 63 ∧ c ≠ 35 with
  | 63 :: query => query
  | _ => []

/-- The query of a parsed URL, which the first `#` ends. -/
def sentQuery (query : Bytes) : Bytes :=
  percentEncode false queryEscaped (query.takeWhile (· ≠ 35))

/-- The bytes it escapes in a path. -/
def pathEscaped (c : UInt8) : Bool := c ≤ 32 ∨ 127 ≤ c ∨ c ∈ ascii "\"#<>?^`\x7b\x7d"

/-- The segment stands for the directory it is in. -/
def isSingleDot (segment : Bytes) : Bool :=
  segment.map lower ∈ [".", "%2e"].map ascii

/-- The segment stands for the directory above. -/
def isDoubleDot (segment : Bytes) : Bool :=
  segment.map lower ∈ ["..", ".%2e", "%2e.", "%2e%2e"].map ascii

/-- The segments of a parsed path, `parsed` being those so far. -/
def parseSegments (parsed : List Bytes) : List Bytes → List Bytes
  | [] => parsed
  | [last] =>
    if isDoubleDot last then parsed.dropLast ++ [[]]
    else if isSingleDot last then parsed ++ [[]]
    else parsed ++ [percentEncode false pathEscaped last]
  | segment :: rest =>
    if isDoubleDot segment then parseSegments parsed.dropLast rest
    else if isSingleDot segment then parseSegments parsed rest
    else parseSegments (parsed ++ [percentEncode false pathEscaped segment]) rest

/-- The path of a parsed URL, for a text that starts with a slash. A backslash counts as one. -/
def sentPath (path : Bytes) : Bytes :=
  slash :: [slash].intercalate
    (parseSegments [] (((path.map fun c => if c = 92 then slash else c).splitOn slash).drop 1))

/-! ## Encoded components -/

/-- The bytes that are escaped in a query. -/
theorem queryEscaped_iff (c : UInt8) : queryEscaped c = true ↔
    c.toNat ≤ 32 ∨ 127 ≤ c.toNat ∨ c.toNat ∈ [34, 35, 60, 62, 39] := by
  have hmarks : ascii "\"#<>'" = [34, 35, 60, 62, 39] := by decide
  simp [queryEscaped, hmarks, UInt8.le_iff_toNat_le, ← UInt8.toNat_inj]

/-- The bytes that are escaped in a path. -/
theorem pathEscaped_iff (c : UInt8) : pathEscaped c = true ↔
    c.toNat ≤ 32 ∨ 127 ≤ c.toNat ∨ c.toNat ∈ [34, 35, 60, 62, 63, 94, 96, 123, 125] := by
  have hmarks : ascii "\"#<>?^`\x7b\x7d" = [34, 35, 60, 62, 63, 94, 96, 123, 125] := by decide
  simp [pathEscaped, hmarks, UInt8.le_iff_toNat_le, ← UInt8.toNat_inj]

theorem percentEncode_of_forall {escapes : UInt8 → Bool} {s : Bytes}
    (h : ∀ c ∈ s, escapes c = false) : percentEncode false escapes s = s := by
  induction s with
  | nil => rfl
  | cons c s ih =>
    obtain ⟨hc, hs⟩ := List.forall_mem_cons.mp h
    rw [percentEncode, List.flatMap_cons, ← percentEncode, ih hs, percentByte, hc]
    simp

/-- A triple is made of a percent sign and digits. -/
theorem mem_percentTriple {c x : UInt8} (h : x ∈ percentTriple c) :
    x = 37 ∨ 48 ≤ x.toNat ∧ x.toNat ≤ 57 ∨ 65 ≤ x.toNat ∧ x.toNat ≤ 70 := by
  have hdigit : ∀ n < 16, 48 ≤ (upperhex n).toNat ∧ (upperhex n).toNat ≤ 57 ∨
      65 ≤ (upperhex n).toNat ∧ (upperhex n).toNat ≤ 70 := by
    decide
  have hhi : c.toNat / 16 < 16 := by have := c.toNat_lt; omega
  have hlo : c.toNat % 16 < 16 := Nat.mod_lt _ (by decide)
  simp only [percentTriple, List.mem_cons, List.not_mem_nil, or_false] at h
  rcases h with rfl | rfl | rfl
  · exact .inl rfl
  · exact .inr (hdigit _ hhi)
  · exact .inr (hdigit _ hlo)

/-- What `encodeURIComponent` writes is made of unescaped bytes and triples. -/
theorem mem_uriEncoded {s : Bytes} {x : UInt8} (h : x ∈ percentEncode false uriEscaped s) :
    x = 37 ∨ uriUnescaped x = true := by
  obtain ⟨c, -, hx⟩ := List.mem_flatMap.mp h
  unfold percentByte at hx
  rw [if_neg (by simp)] at hx
  split at hx
  · rcases mem_percentTriple hx with h | h
    · exact .inl h
    · exact .inr ((uriUnescaped_iff x).mpr (by omega))
  · rename_i hc
    rw [List.mem_singleton.mp hx]
    exact .inr (by simpa [uriEscaped] using hc)

/-- The bytes that are escaped in a query in the end: the apostrophe too. -/
def sentEscaped (c : UInt8) : Bool := uriEscaped c || c = 39

/-- The parser escapes the apostrophes of an encoded component. -/
theorem percentEncode_uriEncoded (s : Bytes) :
    percentEncode false queryEscaped (percentEncode false uriEscaped s) =
      percentEncode false sentEscaped s := by
  have hunit : ∀ escapes : UInt8 → Bool, percentEncode false escapes [] = [] := fun _ => rfl
  have hcons : ∀ (escapes : UInt8 → Bool) a (l : Bytes), percentEncode false escapes (a ++ l) =
      percentEncode false escapes a ++ percentEncode false escapes l := fun _ _ _ =>
    List.flatMap_append
  have hbyte : ∀ c, percentEncode false queryEscaped (percentByte false uriEscaped c) =
      percentByte false sentEscaped c := by
    intro c
    by_cases hc : uriEscaped c = true
    · -- a triple holds nothing that is escaped
      have htriple : percentEncode false queryEscaped (percentTriple c) = percentTriple c := by
        refine percentEncode_of_forall fun x hx => ?_
        rw [← Bool.not_eq_true, queryEscaped_iff]
        simp only [List.mem_cons, List.not_mem_nil, or_false]
        rcases mem_percentTriple hx with rfl | h
        · decide
        · omega
      simp [percentByte, sentEscaped, hc, htriple]
    · have hun : uriUnescaped c = true := by simpa [uriEscaped] using hc
      have hescaped : queryEscaped c = decide (c = 39) := by
        rw [Bool.eq_iff_iff, queryEscaped_iff, decide_eq_true_iff, ← UInt8.toNat_inj]
        rw [uriUnescaped_iff] at hun
        simp only [List.mem_cons, List.not_mem_nil, or_false] at hun ⊢
        have h39 : (39 : UInt8).toNat = 39 := rfl
        omega
      simp [percentByte, percentEncode, sentEscaped, hc, hescaped]
  induction s with
  | nil => rfl
  | cons c s ih =>
    have hhead : ∀ escapes : UInt8 → Bool, percentEncode false escapes (c :: s) =
        percentByte false escapes c ++ percentEncode false escapes s := fun _ => rfl
    rw [hhead, hcons, hbyte, ih, hhead]

/-- What a browser sends is an encoder of queries. -/
theorem queryEncoder_sentEscaped : QueryEncoder (percentEncode false sentEscaped) :=
  queryEncoder_percentEncode (by decide) (by decide) (by decide) (by decide) (by decide)

/-- A query of one parameter whose value was encoded is read back as that parameter, when the key
needs no escapes. -/
theorem parseQuery_sentQuery {key : Bytes} (hkey : ∀ c ∈ key, sentEscaped c = false)
    (value : Bytes) :
    parseQuery (sentQuery (key ++ 61 :: percentEncode false uriEscaped value)) =
      [(key, value)] := by
  have hun : ∀ c ∈ key, uriUnescaped c = true ∧ c ≠ 39 := fun c hc => by
    simpa [sentEscaped, uriEscaped] using hkey c hc
  have hhash : ∀ {c : UInt8}, uriUnescaped c = true → c ≠ 35 := by
    rintro c hc rfl
    exact absurd hc (by decide)
  -- the query has no fragment behind it
  have htake : (key ++ 61 :: percentEncode false uriEscaped value).takeWhile (· ≠ 35) =
      key ++ 61 :: percentEncode false uriEscaped value := by
    refine List.takeWhile_eq_self_iff.mpr fun c hc => decide_eq_true ?_
    rcases List.mem_append.mp hc with hc | hc
    · exact hhash (hun c hc).1
    · rcases List.mem_cons.mp hc with rfl | hc
      · decide
      · rcases mem_uriEncoded hc with rfl | hc
        · decide
        · exact hhash hc
  have hkeyQuery : percentEncode false queryEscaped key = key := by
    refine percentEncode_of_forall fun c hc => ?_
    obtain ⟨hc, hne⟩ := hun c hc
    rw [← Bool.not_eq_true, queryEscaped_iff]
    rw [uriUnescaped_iff] at hc
    rw [ne_eq, ← UInt8.toNat_inj] at hne
    simp only [List.mem_cons, List.not_mem_nil, or_false] at hc ⊢
    have h39 : (39 : UInt8).toNat = 39 := rfl
    omega
  have hsent : sentQuery (key ++ 61 :: percentEncode false uriEscaped value) =
      key ++ 61 :: percentEncode false sentEscaped value := by
    have hequals : percentByte false queryEscaped 61 = [61] := by decide
    rw [sentQuery, htake, percentEncode, List.flatMap_append, List.flatMap_cons,
      ← percentEncode, ← percentEncode, hkeyQuery, hequals, percentEncode_uriEncoded,
      List.singleton_append]
  have hpairs : sentQuery (key ++ 61 :: percentEncode false uriEscaped value) =
      encodePairs (percentEncode false sentEscaped) [(key, value)] := by
    rw [hsent, encodePairs, List.map_singleton, List.intercalate_singleton, encodePair,
      percentEncode_of_forall hkey]
  rw [hpairs, parseQuery_encodePairs queryEncoder_sentEscaped]

/-! ## Encoded segments -/

/-- The first byte of an encoded component is the one of the text, or begins its triple. -/
theorem uriEncoded_cons (c : UInt8) (s : Bytes) :
    percentEncode false uriEscaped (c :: s) =
      (if uriEscaped c then percentTriple c else [c]) ++ percentEncode false uriEscaped s := by
  have hbyte : percentByte false uriEscaped c =
      if uriEscaped c then percentTriple c else [c] := if_neg (by simp)
  rw [percentEncode, List.flatMap_cons, hbyte, ← percentEncode]

/-- Only a capital letter has another lower case. -/
theorem eq_of_lower_eq {c k : UInt8} (hk : k.toNat < 97) (h : lower c = k) : c = k := by
  unfold lower at h
  split at h
  · rename_i hupper
    rw [UInt8.le_iff_toNat_le, UInt8.le_iff_toNat_le] at hupper
    have hsum := congrArg UInt8.toNat h
    rw [UInt8.toNat_add] at hsum
    simp at hsum hupper
    omega
  · exact h

/-- A dot of an encoded component is one of the text. -/
theorem eq_dot_of_uriEncoded {s w : Bytes}
    (h : (percentEncode false uriEscaped s).map lower = 46 :: w) :
    ∃ s', s = 46 :: s' ∧ (percentEncode false uriEscaped s').map lower = w := by
  cases s with
  | nil => cases h
  | cons c s =>
    rw [uriEncoded_cons, List.map_append] at h
    split at h
    · -- a triple begins with a percent sign
      have hhead : (37 : UInt8) = 46 := (List.cons.inj h).1
      cases hhead
    · obtain ⟨hc, hrest⟩ := List.cons.inj h
      exact ⟨s, by rw [eq_of_lower_eq (by decide) hc], hrest⟩

/-- No triple of an encoded component stands for a dot: dots are not escaped. -/
theorem uriEncoded_ne_triple {s w : Bytes} :
    (percentEncode false uriEscaped s).map lower ≠ 37 :: 50 :: 101 :: w := by
  intro h
  cases s with
  | nil => cases h
  | cons c s =>
    rw [uriEncoded_cons, List.map_append] at h
    split at h
    · rename_i hesc
      have hdigit : ∀ n < 16, (lower (upperhex n) = 50 → n = 2) ∧
          (lower (upperhex n) = 101 → n = 14) := by
        decide
      have hhi : c.toNat / 16 < 16 := by have := c.toNat_lt; omega
      have hlo : c.toNat % 16 < 16 := Nat.mod_lt _ (by decide)
      simp only [percentTriple, List.map_cons, List.map_nil, List.cons_append, List.nil_append,
        List.cons.injEq] at h
      have h2 := (hdigit _ hhi).1 h.2.1
      have h14 := (hdigit _ hlo).2 h.2.2.1
      -- which is the dot
      have hc : c = 46 := by
        rw [← UInt8.toNat_inj]
        have h46 : (46 : UInt8).toNat = 46 := rfl
        omega
      subst hc
      exact absurd hesc (by decide)
    · rename_i hesc
      -- the percent sign itself is escaped
      have hc : c = 37 := eq_of_lower_eq (by decide) (List.cons.inj h).1
      subst hc
      exact hesc (by decide)

theorem eq_nil_of_uriEncoded {s : Bytes}
    (h : (percentEncode false uriEscaped s).map lower = []) : s = [] := by
  cases s with
  | nil => rfl
  | cons c s =>
    rw [uriEncoded_cons] at h
    split at h <;> cases h

/-- An encoded segment stands for the directory it is in, or for the one above, when the text
does. -/
theorem isSingleDot_uriEncoded (s : Bytes) :
    isSingleDot (percentEncode false uriEscaped s) = true ↔ s = [46] := by
  have hforms : [".", "%2e"].map ascii = [[46], [37, 50, 101]] := by decide
  constructor
  · intro h
    simp only [isSingleDot, hforms, List.mem_cons, List.not_mem_nil, or_false,
      decide_eq_true_eq] at h
    rcases h with h | h
    · obtain ⟨s', hs, hrest⟩ := eq_dot_of_uriEncoded h
      rw [hs, eq_nil_of_uriEncoded hrest]
    · exact absurd h uriEncoded_ne_triple
  · rintro rfl
    decide

/-- An encoded segment is a double dot only if it was one. -/
theorem isDoubleDot_uriEncoded (s : Bytes) :
    isDoubleDot (percentEncode false uriEscaped s) = true ↔ s = [46, 46] := by
  have hforms : ["..", ".%2e", "%2e.", "%2e%2e"].map ascii =
      [[46, 46], [46, 37, 50, 101], [37, 50, 101, 46], [37, 50, 101, 37, 50, 101]] := by
    decide
  constructor
  · intro h
    simp only [isDoubleDot, hforms, List.mem_cons, List.not_mem_nil, or_false,
      decide_eq_true_eq] at h
    rcases h with h | h | h | h
    · obtain ⟨s', hs, hrest⟩ := eq_dot_of_uriEncoded h
      obtain ⟨s'', hs', hrest'⟩ := eq_dot_of_uriEncoded hrest
      rw [hs, hs', eq_nil_of_uriEncoded hrest']
    · obtain ⟨s', -, hrest⟩ := eq_dot_of_uriEncoded h
      exact absurd hrest uriEncoded_ne_triple
    · exact absurd h uriEncoded_ne_triple
    · exact absurd h uriEncoded_ne_triple
  · rintro rfl
    decide

/-- The segments of a path that are parsed as they are. -/
def PlainSegment (segment : Bytes) : Prop :=
  segment.all uriUnescaped = true ∧ isDoubleDot segment = false ∧ isSingleDot segment = false

instance : DecidablePred PlainSegment := fun segment => by unfold PlainSegment; infer_instance

/-- What is encoded is not escaped again in a path. -/
theorem pathEscaped_of_uriEncoded {c : UInt8} (h : c = 37 ∨ uriUnescaped c = true) :
    pathEscaped c = false := by
  rw [← Bool.not_eq_true, pathEscaped_iff]
  rcases h with rfl | h
  · decide
  · rw [uriUnescaped_iff] at h
    simp only [List.mem_cons, List.not_mem_nil, or_false] at h ⊢
    omega

theorem parseSegments_cons {segment : Bytes} {rest : List Bytes} (hrest : rest ≠ [])
    (parsed : List Bytes) : parseSegments parsed (segment :: rest) =
      if isDoubleDot segment then parseSegments parsed.dropLast rest
      else if isSingleDot segment then parseSegments parsed rest
      else parseSegments (parsed ++ [percentEncode false pathEscaped segment]) rest := by
  cases rest with
  | nil => exact absurd rfl hrest
  | cons next rest => rfl

/-- Plain directories stay as they are. -/
theorem parseSegments_append {dirs : List Bytes} (hdirs : ∀ dir ∈ dirs, PlainSegment dir)
    (parsed : List Bytes) (last : Bytes) :
    parseSegments parsed (dirs ++ [last]) = parseSegments (parsed ++ dirs) [last] := by
  induction dirs generalizing parsed with
  | nil => rw [List.nil_append, List.append_nil]
  | cons dir dirs ih =>
    obtain ⟨⟨hbytes, hdouble, hsingle⟩, hrest⟩ := List.forall_mem_cons.mp hdirs
    have hdir : percentEncode false pathEscaped dir = dir :=
      percentEncode_of_forall fun c hc =>
        pathEscaped_of_uriEncoded (.inr (List.all_eq_true.mp hbytes c hc))
    rw [List.cons_append, parseSegments_cons (by simp), hdouble, hsingle, hdir]
    simp only [Bool.false_eq_true, if_false]
    rw [ih hrest, List.append_assoc, List.singleton_append]

/-- The path of an address whose last segment is an encoded component. -/
theorem sentPath_uriEncoded {dirs : List Bytes} (hdirs : ∀ dir ∈ dirs, PlainSegment dir)
    (s : Bytes) :
    sentPath (slash :: [slash].intercalate (dirs ++ [percentEncode false uriEscaped s])) =
      slash :: [slash].intercalate
        (if s = [46, 46] then dirs.dropLast ++ [[]] else if s = [46] then dirs ++ [[]]
          else dirs ++ [percentEncode false uriEscaped s]) := by
  have hplain : ∀ seg ∈ dirs ++ [percentEncode false uriEscaped s], ∀ c ∈ seg,
      c = 37 ∨ uriUnescaped c = true := by
    intro seg hseg c hc
    rcases List.mem_append.mp hseg with hseg | hseg
    · exact .inr (List.all_eq_true.mp (hdirs seg hseg).1 c hc)
    · rw [List.mem_singleton.mp hseg] at hc
      exact mem_uriEncoded hc
  -- there is no slash in a segment, and no backslash anywhere
  have hslash : ∀ seg ∈ dirs ++ [percentEncode false uriEscaped s], slash ∉ seg := by
    intro seg hseg hmem
    rcases hplain seg hseg _ hmem with h | h
    · cases h
    · exact absurd h (by decide)
  have hback : (slash :: [slash].intercalate (dirs ++ [percentEncode false uriEscaped s])).map
      (fun c => if c = 92 then slash else c) =
        slash :: [slash].intercalate (dirs ++ [percentEncode false uriEscaped s]) := by
    refine (List.map_congr_left fun c hc => if_neg ?_).trans (List.map_id _)
    rintro rfl
    rcases List.mem_cons.mp hc with hc | hc
    · cases hc
    · rcases List.mem_of_mem_intercalate hc with hc | ⟨seg, hseg, hc⟩
      · cases hc
      · rcases hplain seg hseg _ hc with h | h
        · cases h
        · exact absurd h (by decide)
  have hsplit : ((slash :: [slash].intercalate (dirs ++ [percentEncode false uriEscaped s])).splitOn
      slash).drop 1 = dirs ++ [percentEncode false uriEscaped s] := by
    rw [splitOn_slash_cons, List.drop_one, List.tail_cons,
      List.splitOn_intercalate slash _ (by simp)]
    exact hslash
  have hlast : percentEncode false pathEscaped (percentEncode false uriEscaped s) =
      percentEncode false uriEscaped s :=
    percentEncode_of_forall fun c hc => pathEscaped_of_uriEncoded (mem_uriEncoded hc)
  rw [sentPath, hback, hsplit, parseSegments_append hdirs, List.nil_append, parseSegments]
  simp only [isDoubleDot_uriEncoded, isSingleDot_uriEncoded, hlast]

end JsStd
