import OAuth2Monitoring.GoStd.Url
import Mathlib.Logic.Function.Basic

/-!
# Requests and headers, after Go's `net/http`

A header maps each key to its values, the keys being in canonical form; a key without values is
absent. `Header.del` and `Header.set` canonicalise the key they are given, as Go's do.

## Main definitions

* `Header`, `Request`: what a handler is given.
* `splitHostPort`, `trimSpace`: the functions of `net` and `strings` that read an address.
-/

namespace GoStd

/-! ## Headers -/

/-- The bytes of a token, which a header key is made of. -/
def validHeaderFieldByte (c : UInt8) : Bool :=
  (97 ≤ c ∧ c ≤ 122) ∨ (65 ≤ c ∧ c ≤ 90) ∨ (48 ≤ c ∧ c ≤ 57) ∨
    c ∈ ([33, 35, 36, 37, 38, 39, 42, 43, 45, 46, 94, 95, 96, 124, 126] : Bytes)

/-- Lower case for an ASCII letter. -/
def lower (c : UInt8) : UInt8 := if 65 ≤ c ∧ c ≤ 90 then c + 32 else c

/-- Upper case for an ASCII letter. -/
def upper (c : UInt8) : UInt8 := if 97 ≤ c ∧ c ≤ 122 then c - 32 else c

/-- Capitals at the beginning and behind each hyphen, small letters elsewhere. -/
def canonicalize : Bool → Bytes → Bytes
  | _, [] => []
  | atWord, c :: s => (if atWord then upper c else lower c) :: canonicalize (c = 45) s

/-- `textproto.CanonicalMIMEHeaderKey`: a key that is not a token is left as it is. -/
def canonicalMIMEHeaderKey (key : Bytes) : Bytes :=
  if key.all validHeaderFieldByte then canonicalize true key else key

/-- `http.Header`. -/
abbrev Header := Bytes → List Bytes

namespace Header

/-- The header without keys. -/
def empty : Header := fun _ => []

/-- `Header.Get`: the first value of a key. -/
def get (h : Header) (key : Bytes) : Bytes := ((h (canonicalMIMEHeaderKey key)).head?).getD []

/-- `Header.Set`. -/
def set (h : Header) (key value : Bytes) : Header :=
  Function.update h (canonicalMIMEHeaderKey key) [value]

/-- `Header.Del`. -/
def del (h : Header) (key : Bytes) : Header := Function.update h (canonicalMIMEHeaderKey key) []

theorem del_self (h : Header) (key : Bytes) : h.del key (canonicalMIMEHeaderKey key) = [] :=
  Function.update_self ..

theorem del_canonical (h : Header) {key : Bytes} (hkey : canonicalMIMEHeaderKey key = key) :
    h.del key key = [] := by
  have hdel := h.del_self key
  rwa [hkey] at hdel

theorem del_of_ne (h : Header) {key k : Bytes} (hk : k ≠ canonicalMIMEHeaderKey key) :
    h.del key k = h k := Function.update_of_ne hk ..

theorem set_self (h : Header) (key value : Bytes) :
    h.set key value (canonicalMIMEHeaderKey key) = [value] := Function.update_self ..

theorem set_of_ne (h : Header) {key k : Bytes} (value : Bytes)
    (hk : k ≠ canonicalMIMEHeaderKey key) :
    h.set key value k = h k := Function.update_of_ne hk ..

/-- Deleting never brings a key back. -/
theorem del_eq_nil {h : Header} {k : Bytes} (hk : h k = []) (key : Bytes) : h.del key k = [] := by
  by_cases heq : k = canonicalMIMEHeaderKey key
  · rw [heq, del_self]
  · rw [del_of_ne h heq, hk]

theorem foldl_del_eq_nil {h : Header} {k : Bytes} (hk : h k = []) (keys : List Bytes) :
    keys.foldl del h k = [] := by
  induction keys generalizing h with
  | nil => exact hk
  | cons key keys ih => exact ih (del_eq_nil hk key)

end Header

/-! ## Texts -/

/-- `textproto.TrimString`: no blanks, tabs or line ends on either side. -/
def trimString (s : Bytes) : Bytes :=
  let blank : UInt8 → Bool := fun c => c ∈ ([32, 9, 10, 13] : Bytes)
  ((s.dropWhile blank).reverse.dropWhile blank).reverse

/-- Is the text one white space character of Unicode, encoded in UTF-8? -/
def isSpace (s : Bytes) : Bool :=
  match s with
  | [a] => (9 ≤ a ∧ a ≤ 13) ∨ a = 32
  | [a, b] => a = 0xC2 ∧ (b = 0x85 ∨ b = 0xA0)
  | [a, b, c] =>
    (a = 0xE1 ∧ b = 0x9A ∧ c = 0x80) ∨
      (a = 0xE2 ∧ b = 0x80 ∧ ((0x80 ≤ c ∧ c ≤ 0x8A) ∨ c = 0xA8 ∨ c = 0xA9 ∨ c = 0xAF)) ∨
      (a = 0xE2 ∧ b = 0x81 ∧ c = 0x9F) ∨ (a = 0xE3 ∧ b = 0x80 ∧ c = 0x80)
  | _ => false

/-- Drop the characters at the front that are white space once `read` has put their bytes in
order. -/
def dropSpace (read : Bytes → Bytes) : Bytes → Bytes
  | [] => []
  | a :: s =>
    if isSpace (read [a]) then dropSpace read s
    else match s with
      | [] => [a]
      | b :: s =>
        if isSpace (read [a, b]) then dropSpace read s
        else match s with
          | [] => [a, b]
          | c :: s => if isSpace (read [a, b, c]) then dropSpace read s else a :: b :: c :: s

/-- `strings.TrimSpace`. -/
def trimSpace (s : Bytes) : Bytes := (dropSpace List.reverse (dropSpace id s).reverse).reverse

/-- `strings.TrimRight` with one byte. -/
def trimRight (s : Bytes) (c : UInt8) : Bytes := (s.reverse.dropWhile (· = c)).reverse

/-- `net.SplitHostPort`: the port follows the last colon; a host with colons of its own stands in
brackets, and there are no other brackets. -/
def splitHostPort (s : Bytes) : Option (Bytes × Bytes) :=
  if 58 ∉ s then none
  else
    let front := [(58 : UInt8)].intercalate (s.fullPieces 58)
    let port := s.lastPiece 58
    if front.head? = some 91 then
      let host := front.tail.dropLast
      if front.tail.getLast? = some 93 ∧ 93 ∉ host ∧ 91 ∉ host ∧ 91 ∉ port ∧ 93 ∉ port then
        some (host, port)
      else none
    else if 58 ∈ front ∨ 91 ∈ s ∨ 93 ∈ s then none
    else some (front, port)

/-! ## Requests -/

/-- `http.Request`, as the server hands it to a handler. `remoteAddr` is the peer of the TCP
connection. -/
structure Request where
  method : Bytes
  url : Url
  host : Bytes
  remoteAddr : Bytes
  header : Header
  body : Bytes

/-- A request on its way to an upstream. -/
structure OutRequest where
  method : Bytes
  path : Bytes
  rawPath : Bytes
  rawQuery : Bytes
  host : Bytes
  header : Header
  body : Bytes

/-- What an upstream answers. -/
structure Answer where
  status : ℕ
  header : Header
  body : Bytes

/-- `Request.Clone`, the copy of a request a reverse proxy starts from. -/
def Request.clone (r : Request) : OutRequest where
  method := r.method
  path := r.url.path
  rawPath := r.url.rawPath
  rawQuery := r.url.rawQuery
  host := r.host
  header := r.header
  body := r.body

/-- The path an upstream decodes from the request line it is sent. -/
def OutRequest.decodedPath (out : OutRequest) : Option Bytes :=
  unescape .path (escapedPath out.path out.rawPath)

/-- The path of a request as the upstream decodes it. -/
@[simp]
theorem OutRequest.decodedPath_eq (out : OutRequest) : out.decodedPath = some out.path :=
  unescape_escapedPath out.path out.rawPath

end GoStd
