import OAuth2Monitoring.GoStd.Path
import Mathlib.Data.List.Sort

/-!
# Percent-encoding and URLs, after Go's `net/url`

`escape` and `unescape` are the two directions of percent-encoding, in the two modes the program
uses: a whole path, and a component of a query. A `Url` is what parsing the request line's target
leaves: the decoded path, and the path as it was sent when its encoding is not the default one.

## Main results

* `unescape_escape`: decoding undoes encoding.
* `Url.rawPath_eq_nil_iff`: the raw path is empty exactly for the default encoding.
* `unescape_escapedPath`: what is sent for a decoded path decodes to it.
-/

namespace GoStd

/-! ## Percent-encoding -/

/-- What a text is encoded for. -/
inductive Encoding
  | path
  | queryComponent
  deriving DecidableEq

/-- The digit of a value below 16. -/
def upperhex (n : ℕ) : UInt8 := if n < 10 then (48 + n).toUInt8 else (55 + n).toUInt8

/-- The value of a hexadecimal digit of either case. -/
def unhex (c : UInt8) : Option ℕ :=
  if 48 ≤ c ∧ c ≤ 57 then some (c.toNat - 48)
  else if 97 ≤ c ∧ c ≤ 102 then some (c.toNat - 87)
  else if 65 ≤ c ∧ c ≤ 70 then some (c.toNat - 55)
  else none

/-- Letters, digits and `-_.~` are never escaped; of the reserved bytes `$&+,/:;=?@` a path
escapes the question mark only, a query component all. -/
def shouldEscape (mode : Encoding) (c : UInt8) : Bool :=
  if (97 ≤ c ∧ c ≤ 122) ∨ (65 ≤ c ∧ c ≤ 90) ∨ (48 ≤ c ∧ c ≤ 57) then false
  else if c ∈ ascii "-_.~" then false
  else if c ∈ ascii "$&+,/:;=?@" then
    match mode with
    | .path => c = 63
    | .queryComponent => true
  else true

/-- The encoding of one byte; a query component writes a blank as `+`. -/
def escapeByte (mode : Encoding) (c : UInt8) : Bytes :=
  if shouldEscape mode c then
    if c = 32 ∧ mode = .queryComponent then [43]
    else [37, upperhex (c.toNat / 16), upperhex (c.toNat % 16)]
  else [c]

/-- Percent-encoding. -/
def escape (mode : Encoding) (s : Bytes) : Bytes := s.flatMap (escapeByte mode)

/-- Percent-decoding; a `%` without two hexadecimal digits behind it is an error. -/
def unescape (mode : Encoding) : Bytes → Option Bytes
  | [] => some []
  | c :: s =>
    if c = 37 then
      match s with
      | a :: b :: rest => do
        let hi ← unhex a
        let lo ← unhex b
        let t ← unescape mode rest
        pure ((16 * hi + lo).toUInt8 :: t)
      | _ => none
    else do
      let t ← unescape mode s
      pure ((if c = 43 ∧ mode = .queryComponent then 32 else c) :: t)

theorem unhex_upperhex {n : ℕ} (h : n < 16) : unhex (upperhex n) = some n := by
  have hall : ∀ n < 16, unhex (upperhex n) = some n := by decide
  exact hall n h

theorem toUInt8_div_mod (c : UInt8) : (16 * (c.toNat / 16) + c.toNat % 16).toUInt8 = c := by
  rw [Nat.div_add_mod, Nat.toUInt8_eq, UInt8.ofNat_toNat]

@[simp]
theorem unescape_nil (mode : Encoding) : unescape mode [] = some [] := by
  unfold unescape
  rfl

/-- A byte that is neither `%` nor `+` stands for itself. -/
theorem unescape_cons_of_ne {mode : Encoding} {c : UInt8} (h37 : c ≠ 37)
    (h43 : c = 43 → mode = .path) (s : Bytes) :
    unescape mode (c :: s) = (unescape mode s).map (c :: ·) := by
  have hc : ¬(c = 43 ∧ mode = .queryComponent) := by
    rintro ⟨rfl, rfl⟩
    exact absurd (h43 rfl) (by decide)
  conv_lhs => unfold unescape
  rw [if_neg h37, if_neg hc]
  cases unescape mode s <;> rfl

/-- An encoded byte is decoded again, whatever is behind it. -/
theorem unescape_escapeByte_append (mode : Encoding) (c : UInt8) (s : Bytes) :
    unescape mode (escapeByte mode c ++ s) = (unescape mode s).map (c :: ·) := by
  by_cases hesc : shouldEscape mode c = true
  · by_cases hblank : c = 32 ∧ mode = .queryComponent
    · -- a blank in a query stands as a plus
      obtain ⟨rfl, rfl⟩ := hblank
      have hplus : escapeByte .queryComponent 32 = [43] := by decide
      rw [hplus, List.singleton_append]
      conv_lhs => unfold unescape
      cases unescape .queryComponent s <;> rfl
    · -- any other byte as a percent sign with its two digits
      have hhi : c.toNat / 16 < 16 := by have := c.toNat_lt; omega
      have hlo : c.toNat % 16 < 16 := Nat.mod_lt _ (by decide)
      rw [escapeByte, if_pos hesc, if_neg hblank]
      conv_lhs => unfold unescape
      simp only [List.cons_append, List.nil_append, if_true, unhex_upperhex hhi,
        unhex_upperhex hlo, Option.bind_eq_bind, Option.bind_some, toUInt8_div_mod]
      cases unescape mode s <;> rfl
  · rw [escapeByte, if_neg hesc, List.singleton_append]
    refine unescape_cons_of_ne ?_ ?_ s
    · rintro rfl
      cases mode <;> exact hesc (by decide)
    · rintro rfl
      cases mode with
      | path => rfl
      | queryComponent => exact absurd (by decide) hesc

/-- Decoding undoes encoding. -/
theorem unescape_escape (mode : Encoding) (s : Bytes) : unescape mode (escape mode s) = some s := by
  induction s with
  | nil => rw [escape, List.flatMap_nil, unescape_nil]
  | cons c s ih =>
    rw [escape, List.flatMap_cons, unescape_escapeByte_append, ← escape, ih, Option.map_some]

/-- A slash at the end of an encoded text is one at the end of the text. -/
theorem unescape_append_slash {s t : Bytes} (h : unescape .path (s ++ [slash]) = some t) :
    ∃ u, unescape .path s = some u ∧ t = u ++ [slash] := by
  induction s using unescape.induct generalizing t with
  | case1 =>
    rw [List.nil_append] at h
    exact ⟨[], unescape_nil _, by simpa [unescape, slash] using h.symm⟩
  | case2 a b rest ih =>
    unfold unescape at h ⊢
    simp only [List.cons_append, if_true, Option.bind_eq_bind, Option.bind_eq_some_iff] at h ⊢
    obtain ⟨hi, hhi, lo, hlo, t', ht', heq⟩ := h
    obtain ⟨u, hu, rfl⟩ := ih ht'
    exact ⟨_, ⟨hi, hhi, lo, hlo, u, hu, rfl⟩, by simpa using heq.symm⟩
  | case3 s hs =>
    -- a `%` with fewer than two bytes behind it, the slash being one of them
    exfalso
    unfold unescape at h
    rcases s with _ | ⟨a, _ | ⟨b, rest⟩⟩
    · simp at h
    · have hslash : unhex slash = none := by decide
      simp [hslash] at h
    · exact hs a b rest rfl
  | case4 c s hc ih =>
    unfold unescape at h ⊢
    simp only [List.cons_append, if_neg hc, Option.bind_eq_bind, Option.bind_eq_some_iff] at h ⊢
    obtain ⟨t', ht', heq⟩ := h
    obtain ⟨u, hu, rfl⟩ := ih ht'
    exact ⟨_, ⟨u, hu, rfl⟩, by simpa using heq.symm⟩

/-! ## URLs -/

/-- `URL.setPath`: the decoded path, and the raw one unless the encoding is the default. -/
def setPath (target : Bytes) : Option (Bytes × Bytes) := do
  let path ← unescape .path target
  pure (path, if escape .path path = target then [] else target)

/-- The parsed target of a request line. -/
structure Url where
  target : Bytes
  path : Bytes
  rawPath : Bytes
  rawQuery : Bytes
  parsed : setPath target = some (path, rawPath)

/-- The URL of a path in its default encoding. -/
def Url.ofPath (path rawQuery : Bytes) : Url where
  target := escape .path path
  path := path
  rawPath := []
  rawQuery := rawQuery
  parsed := by simp [setPath, unescape_escape]

/-- The raw path is set for a non-default encoding only. -/
theorem Url.rawPath_eq_nil_iff (u : Url) : u.rawPath = [] ↔ escape .path u.path = u.target := by
  have h := u.parsed
  simp only [setPath, Option.bind_eq_bind, Option.bind_eq_some_iff, Option.pure_def,
    Option.some.injEq, Prod.mk.injEq] at h
  obtain ⟨path, hpath, rfl, hraw⟩ := h
  split at hraw
  · rename_i heq
    simp [← hraw, heq]
  · rename_i heq
    rw [← hraw]
    refine iff_of_false ?_ heq
    intro htarget
    rw [htarget, unescape_nil, Option.some.injEq] at hpath
    exact heq (by rw [htarget, ← hpath]; rfl)

/-- `URL.EscapedPath`: the raw path where it is an encoding of the path, else the default one. -/
def escapedPath (path rawPath : Bytes) : Bytes :=
  if rawPath ≠ [] ∧ unescape .path rawPath = some path then rawPath
  else if path = ascii "*" then ascii "*"
  else escape .path path

/-- What is sent for a path decodes to that path. -/
theorem unescape_escapedPath (path rawPath : Bytes) :
    unescape .path (escapedPath path rawPath) = some path := by
  unfold escapedPath
  split
  · rename_i h
    exact h.2
  · split
    · rename_i h
      rw [h]
      decide
    · exact unescape_escape .path path

/-- Without a raw path the path is encoded. -/
theorem escapedPath_of_rawPath_eq_nil {path : Bytes} (h : path ≠ ascii "*") :
    escapedPath path [] = escape .path path := by
  simp [escapedPath, h]

/-- `httputil.singleJoiningSlash`. -/
def singleJoiningSlash (a b : Bytes) : Bytes :=
  if a.getLast? = some slash ∧ b.head? = some slash then a ++ b.tail
  else if a.getLast? ≠ some slash ∧ b.head? ≠ some slash then a ++ slash :: b
  else a ++ b

/-- `httputil.joinURLPath`, on the (path, raw path) pairs of two URLs. -/
def joinURLPath (a b : Bytes × Bytes) : Bytes × Bytes :=
  if a.2 = [] ∧ b.2 = [] then (singleJoiningSlash a.1 b.1, [])
  else
    let apath := escapedPath a.1 a.2
    let bpath := escapedPath b.1 b.2
    if apath.getLast? = some slash ∧ bpath.head? = some slash then
      (a.1 ++ b.1.tail, apath ++ bpath.tail)
    else if apath.getLast? ≠ some slash ∧ bpath.head? ≠ some slash then
      (a.1 ++ slash :: b.1, apath ++ slash :: bpath)
    else (a.1 ++ b.1, apath ++ bpath)

/-- `base` is a prefix of the joined path and `path` what follows, a slash that ends the one and
begins the other standing once. -/
def JoinedAt (base path joined : Bytes) : Prop :=
  ∃ front, (front = base ∨ front ++ [slash] = base) ∧ joined = front ++ path

/-- A rooted path is joined behind one slash. -/
theorem singleJoiningSlash_rooted (a : Bytes) :
    ∃ front, (front = a ∨ front ++ [slash] = a) ∧
      ∀ q, singleJoiningSlash a (slash :: q) = front ++ slash :: q := by
  by_cases hlast : a.getLast? = some slash
  · obtain ⟨front, rfl⟩ := List.getLast?_eq_some_iff.mp hlast
    exact ⟨front, .inr rfl, fun q => by simp [singleJoiningSlash]⟩
  · exact ⟨a, .inl rfl, fun q => by simp [singleJoiningSlash, hlast]⟩

/-- A base puts the same text in front of every rooted path in its default encoding: its own path,
but for a slash at its end. -/
theorem joinURLPath_rooted (a : Bytes × Bytes) :
    ∃ front, (front = a.1 ∨ front ++ [slash] = a.1) ∧
      ∀ q, (joinURLPath a (slash :: q, [])).1 = front ++ slash :: q := by
  by_cases hraw : a.2 = []
  · obtain ⟨front, hfront, hjoin⟩ := singleJoiningSlash_rooted a.1
    exact ⟨front, hfront, fun q => by simp [joinURLPath, hraw, hjoin]⟩
  · have hesc : escapeByte .path slash = [slash] := by decide
    have hhead : ∀ q, (escapedPath (slash :: q) []).head? = some slash := by
      intro q
      have hstar : (slash :: q) ≠ ascii "*" := by simp [slash, ascii]
      rw [escapedPath_of_rawPath_eq_nil hstar, escape, List.flatMap_cons, hesc]
      rfl
    by_cases hlast : (escapedPath a.1 a.2).getLast? = some slash
    · -- both paths lose a slash, and a path whose encoding ends in one ends in one itself
      obtain ⟨front, hfront⟩ := List.getLast?_eq_some_iff.mp hlast
      have hdec := unescape_escapedPath a.1 a.2
      rw [hfront] at hdec
      obtain ⟨u, -, hu⟩ := unescape_append_slash hdec
      have hjoin : ∀ q, (joinURLPath a (slash :: q, [])).1 = a.1 ++ q := fun q => by
        simp [joinURLPath, hraw, hhead, hlast]
      exact ⟨u, .inr hu.symm, fun q => by rw [hjoin, hu, List.append_assoc, List.singleton_append]⟩
    · exact ⟨a.1, .inl rfl, fun q => by simp [joinURLPath, hraw, hhead, hlast]⟩

/-- Joining a rooted path in its default encoding to any base. -/
theorem joinURLPath_joinedAt (a : Bytes × Bytes) (q : Bytes) :
    JoinedAt a.1 (slash :: q) (joinURLPath a (slash :: q, [])).1 := by
  obtain ⟨front, hfront, hjoin⟩ := joinURLPath_rooted a
  exact ⟨front, hfront, hjoin q⟩

/-- Different paths are joined to different paths. -/
theorem joinURLPath_inj {a : Bytes × Bytes} {q q' : Bytes}
    (h : (joinURLPath a (slash :: q, [])).1 = (joinURLPath a (slash :: q', [])).1) : q = q' := by
  obtain ⟨front, -, hjoin⟩ := joinURLPath_rooted a
  rw [hjoin, hjoin] at h
  exact (List.cons.inj (List.append_cancel_left h)).2

/-! ## Queries -/

/-- A list of key-value pairs, as `url.Values` in the order of the text. -/
abbrev Values := List (Bytes × Bytes)

/-- The first value of a key, empty when there is none. -/
def Values.get (v : Values) (key : Bytes) : Bytes := ((v.find? (·.1 = key)).map (·.2)).getD []

/-- Replace the values of a key by one. -/
def Values.set (v : Values) (key value : Bytes) : Values :=
  v.filter (·.1 ≠ key) ++ [(key, value)]

/-- One `key=value` of a query, dropped when it is empty, holds a semicolon or does not decode. -/
def parsePair (piece : Bytes) : Option (Bytes × Bytes) :=
  if piece = [] ∨ 59 ∈ piece then none
  else do
    let key ← unescape .queryComponent (piece.takeWhile (· ≠ 61))
    let value ← unescape .queryComponent ((piece.dropWhile (· ≠ 61)).drop 1)
    pure (key, value)

/-- `URL.Query`. -/
def parseQuery (rawQuery : Bytes) : Values := (rawQuery.splitOn 38).filterMap parsePair

/-- `Values.Encode`: the pairs in the order of their keys. -/
def Values.encode (v : Values) : Bytes :=
  [(38 : UInt8)].intercalate <| (v.mergeSort fun a b => a.1 ≤ b.1).map fun kv =>
    escape .queryComponent kv.1 ++ 61 :: escape .queryComponent kv.2

end GoStd
