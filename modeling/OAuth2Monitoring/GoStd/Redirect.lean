import OAuth2Monitoring.GoStd.ServeMux

/-!
# Go's `http.Redirect`

What is written into `Location`. A URL without a scheme and a host is completed with the directory
of the request's path, if it is not rooted, and its path is cleaned; the query and any other URL
are left alone. Bytes that are not ASCII are escaped in the end.

## Main definitions

* `relativeURL`: `url.Parse` finds neither a scheme nor a host.
* `resolvedURL`, `redirectURL`: where a redirect leads, and what is written.

## Main results

* `redirectURL_of_isClean`: a clean URL is written as it is.
* `exists_redirectURL_query`: the query is written as it is.
-/

namespace GoStd

/-! ## The scheme and the host of a URL -/

/-- An ASCII letter. -/
def isLetter (c : UInt8) : Bool := (97 ≤ c ∧ c ≤ 122) ∨ (65 ≤ c ∧ c ≤ 90)

/-- An ASCII digit. -/
def isDigit (c : UInt8) : Bool := 48 ≤ c ∧ c ≤ 57

/-- A byte of a scheme. -/
def isSchemeByte (c : UInt8) : Bool := isLetter c || isDigit c || c ∈ ascii "+-."

/-- `url.getScheme`: the scheme, empty if there is none, and what follows it. A colon at the front
is an error. -/
def getScheme (s : Bytes) : Option (Bytes × Bytes) :=
  if (s.dropWhile isSchemeByte).head? ≠ some 58 then some ([], s)
  else
    match s.head? with
    | none => none
    | some c =>
      if c = 58 then none
      else if isLetter c then
        some (s.takeWhile isSchemeByte, (s.dropWhile isSchemeByte).tail)
      else some ([], s)

/-- A control byte, which a URL does not hold in front of its fragment. -/
def isCTLByte (c : UInt8) : Bool := c < 32 ∨ c = 127

/-- `url.validUserinfo`. -/
def validUserinfo (s : Bytes) : Bool :=
  s.all fun c => isLetter c || isDigit c || c ∈ ascii "-._:~!$&'()*+,;=%@"

/-- An authority without a host: it is empty, or there is a user only. -/
def hostless (authority : Bytes) : Bool :=
  authority = [] ∨ authority.getLast? = some 64 ∧ validUserinfo authority.dropLast ∧
    (unescape .path authority.dropLast).isSome

/-- Does `url.Parse` accept the path, without a scheme before it and a query behind, and find no
host in it? -/
def hostlessPath (path : Bytes) : Bool :=
  if path.head? ≠ some slash then
    -- a colon in the first segment would be read as one behind a scheme
    58 ∉ path.takeWhile (· ≠ slash) ∧ (unescape .path path).isSome
  else if [slash, slash].isPrefixOf path ∧ ¬[slash, slash, slash].isPrefixOf path then
    hostless ((path.drop 2).takeWhile (· ≠ slash)) ∧
      (unescape .path ((path.drop 2).dropWhile (· ≠ slash))).isSome
  else (unescape .path path).isSome

/-- `url.Parse` accepts the URL, and finds neither a scheme nor a host. -/
def relativeURL (url : Bytes) : Bool :=
  let u := url.takeWhile (· ≠ 35)
  let fragment := (url.dropWhile (· ≠ 35)).drop 1
  !u.any isCTLByte && (unescape .path fragment).isSome &&
    match getScheme u with
    | some ([], _) => hostlessPath (u.takeWhile (· ≠ 63))
    | _ => false

/-! ## What is written -/

/-- The digit of a value below 16, in lower case. -/
def lowerhex (n : ℕ) : UInt8 := if n < 10 then (48 + n).toUInt8 else (87 + n).toUInt8

/-- `http.hexEscapeNonASCII`. -/
def hexEscapeNonASCII (s : Bytes) : Bytes :=
  s.flatMap fun c => if c < 128 then [c] else [37, lowerhex (c.toNat / 16), lowerhex (c.toNat % 16)]

/-- The directory `path.Split` finds. -/
def splitDir (p : Bytes) : Bytes := (p.reverse.dropWhile (· ≠ slash)).reverse

/-- A path cleaned, its trailing slash kept. -/
def cleanKeepingSlash (path : Bytes) : Bytes :=
  if path.getLast? = some slash ∧ (clean path).getLast? ≠ some slash then clean path ++ [slash]
  else clean path

/-- A relative URL at a request for `oldpath`: rooted and cleaned up to its query. -/
def absoluteURL (oldpath url : Bytes) : Bytes :=
  let rooted :=
    if url.head? = some slash then url
    else splitDir (if oldpath = [] then [slash] else oldpath) ++ url
  cleanKeepingSlash (rooted.takeWhile (· ≠ 63)) ++ rooted.dropWhile (· ≠ 63)

/-- The URL a redirect leads to, at a request for `oldpath`. -/
def resolvedURL (oldpath url : Bytes) : Bytes :=
  if relativeURL url then absoluteURL oldpath url else url

/-- The `Location` that `http.Redirect` writes for it. -/
def redirectURL (oldpath url : Bytes) : Bytes := hexEscapeNonASCII (resolvedURL oldpath url)

/-- `htmlEscape`. -/
def htmlEscape (s : Bytes) : Bytes :=
  s.flatMap fun c =>
    if c = 38 then ascii "&amp;"
    else if c = 60 then ascii "&lt;"
    else if c = 62 then ascii "&gt;"
    else if c = 34 then ascii "&#34;"
    else if c = 39 then ascii "&#39;"
    else [c]

/-- The page of a redirect, for user agents that do not follow it. -/
def redirectPage (oldpath url statusText : Bytes) : Bytes :=
  ascii "<a href=\"" ++ htmlEscape (resolvedURL oldpath url) ++ ascii "\">" ++ statusText ++
    ascii "</a>.\n\n"

/-! ## What is left alone -/

theorem hexEscapeNonASCII_append (s t : Bytes) :
    hexEscapeNonASCII (s ++ t) = hexEscapeNonASCII s ++ hexEscapeNonASCII t := List.flatMap_append

/-- A text of ASCII is left alone. -/
theorem hexEscapeNonASCII_of_ascii {s : Bytes} (h : ∀ c ∈ s, c < 128) :
    hexEscapeNonASCII s = s := by
  induction s with
  | nil => rfl
  | cons c s ih =>
    have hs := ih fun b hb => h b (List.mem_cons_of_mem _ hb)
    rw [hexEscapeNonASCII] at hs ⊢
    rw [List.flatMap_cons, hs, if_pos (h c List.mem_cons_self), List.singleton_append]

/-- On a rooted path this is what the mux does. -/
theorem cleanKeepingSlash_eq_cleanPath (q : Bytes) :
    cleanKeepingSlash (slash :: q) = cleanPath (slash :: q) := by
  have hlast : (clean (slash :: q)).getLast? ≠ some slash ↔ clean (slash :: q) ≠ [slash] :=
    ⟨fun h hroot => h (by rw [hroot]; rfl), clean_getLast_ne⟩
  simp only [cleanKeepingSlash, cleanPath, List.head?_cons, if_true, hlast]

/-- A URL that a redirect writes as it is: a canonical path, and a query if there is one, both of
ASCII. -/
structure IsClean (url : Bytes) : Prop where
  isAscii : ∀ c ∈ url, c < 128
  rooted : url.head? = some slash
  canonical : Canonical (url.takeWhile (· ≠ 63))

/-- A clean URL is left as it is. -/
theorem absoluteURL_of_isClean {url : Bytes} (h : IsClean url) (oldpath : Bytes) :
    absoluteURL oldpath url = url := by
  obtain ⟨rest, rfl⟩ : ∃ rest, url = slash :: rest := by
    cases url with
    | nil => cases h.rooted
    | cons c rest => exact ⟨rest, by rw [Option.some.inj h.rooted]⟩
  have htake : (slash :: rest).takeWhile (· ≠ (63 : UInt8)) =
      slash :: rest.takeWhile (· ≠ 63) := rfl
  have hcanonical := h.canonical
  simp only [absoluteURL, List.head?_cons, if_true]
  rw [htake] at hcanonical ⊢
  rw [cleanKeepingSlash_eq_cleanPath, cleanPath_of_canonical hcanonical, ← htake,
    List.takeWhile_append_dropWhile]

/-- A clean URL is written as it is. -/
theorem redirectURL_of_isClean {url : Bytes} (h : IsClean url) (oldpath : Bytes) :
    redirectURL oldpath url = url := by
  unfold redirectURL resolvedURL
  rw [absoluteURL_of_isClean h, ite_self, hexEscapeNonASCII_of_ascii h.isAscii]

/-- What follows a question mark is written as it is. -/
theorem exists_redirectURL_query (oldpath front : Bytes) {query : Bytes}
    (h : ∀ c ∈ query, c < 128) :
    ∃ front', redirectURL oldpath (front ++ 63 :: query) = front' ++ 63 :: query := by
  have hascii : ∀ c ∈ (63 :: query : Bytes), c < 128 := by
    intro c hc
    rcases List.mem_cons.mp hc with rfl | hc
    · decide
    · exact h c hc
  have hescape (s : Bytes) : hexEscapeNonASCII (s ++ 63 :: query) =
      hexEscapeNonASCII s ++ 63 :: query := by
    rw [hexEscapeNonASCII_append, hexEscapeNonASCII_of_ascii hascii]
  -- the query begins at the first question mark, which may stand further in front
  have hdrop (s : Bytes) : ∃ t, (s ++ 63 :: query).dropWhile (· ≠ 63) = t ++ 63 :: query := by
    induction s with
    | nil => exact ⟨[], rfl⟩
    | cons c s ih =>
      by_cases hc : c = 63
      · exact ⟨c :: s, by rw [List.cons_append, List.dropWhile_cons_of_neg (by simp [hc])]⟩
      · obtain ⟨t, ht⟩ := ih
        exact ⟨t, by rw [List.cons_append, List.dropWhile_cons_of_pos (by simp [hc]), ht]⟩
  unfold redirectURL resolvedURL
  split
  · unfold absoluteURL
    dsimp only
    split
    · obtain ⟨t, ht⟩ := hdrop front
      exact ⟨_, by rw [ht, ← List.append_assoc, hescape]⟩
    · obtain ⟨t, ht⟩ := hdrop (splitDir (if oldpath = [] then [slash] else oldpath) ++ front)
      exact ⟨_, by rw [← List.append_assoc, ht, ← List.append_assoc, hescape]⟩
  · exact ⟨_, hescape front⟩

/-- Directories are resolved, and what is not ASCII is escaped. -/
example : redirectURL (ascii "/bff/callback") (ascii "/users//x/../y/?q=//") =
    ascii "/users/y/?q=//" := by
  decide +kernel

end GoStd
