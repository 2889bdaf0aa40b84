import OAuth2Monitoring.ToMathlib.SplitOn
import Mathlib.Data.List.DropRight

/-!
# Texts and values of JavaScript

Strings as sequences of UTF-16 code units with the operations the console uses, and the values
`JSON.parse` gives, with property access.
-/

namespace JsStd

/-! ## Texts -/

/-- A string: UTF-16 code units. -/
abbrev Text := List UInt16

/-- A literal without characters above the basic plane. -/
def text (s : String) : Text := s.toList.map fun c => c.toNat.toUInt16

/-- White space and line terminators, which `trim` removes. -/
def isWhiteSpace (c : UInt16) : Bool :=
  (9 ≤ c ∧ c ≤ 13) ∨ c = 32 ∨ c = 0xA0 ∨ c = 0x1680 ∨ (0x2000 ≤ c ∧ c ≤ 0x200A) ∨
    c = 0x2028 ∨ c = 0x2029 ∨ c = 0x202F ∨ c = 0x205F ∨ c = 0x3000 ∨ c = 0xFEFF

/-- `String.prototype.trim`. -/
def trim (s : Text) : Text :=
  ((s.dropWhile isWhiteSpace).reverse.dropWhile isWhiteSpace).reverse

theorem trim_trim (s : Text) : trim (trim s) = trim s := by
  have hends : trim (trim s) =
      List.rdropWhile isWhiteSpace (List.dropWhile isWhiteSpace (trim s)) := rfl
  have htrim : trim s = List.rdropWhile isWhiteSpace (List.dropWhile isWhiteSpace s) := rfl
  -- what is left in front is what the text without leading white space starts with
  have hfront : List.dropWhile isWhiteSpace (trim s) = trim s := by
    refine List.dropWhile_eq_self_iff.mpr fun hlen => ?_
    have hkept : trim s <+: List.dropWhile isWhiteSpace s := List.rdropWhile_prefix _ _
    rw [hkept.getElem hlen]
    exact List.dropWhile_get_zero_not _ _ (hlen.trans_le hkept.length_le)
  rw [hends, hfront, htrim, List.rdropWhile_idempotent]

/-- `String.prototype.startsWith`. -/
def startsWith (s front : Text) : Bool := front.isPrefixOf s

/-- The text of a field of the line, after its name: `line.slice(n).trim()` where the line starts
with the name of length `n`. -/
def fieldText (name line : Text) : Option Text :=
  if startsWith line name then some (trim (line.drop name.length)) else none

/-! ## Values -/

/-- A value `JSON.parse` can give. A number is given by what `String` makes of it. -/
inductive Json
  | null
  | bool (b : Bool)
  | num (printed : Text)
  | str (s : Text)
  | arr (elems : List Json)
  | obj (fields : List (Text × Json))

namespace Json

/-- `value.name` where the value is not `null`, the last of several fields of one name counting.
`none` is `undefined`. The names used are none that numbers, strings or arrays have. -/
def prop (name : String) : Json → Option Json
  | obj fields => (fields.reverse.find? fun field => field.1 = text name).map Prod.snd
  | _ => none

/-- `x ?? y`. -/
def orElse (x : Option Json) (y : Json) : Json :=
  match x with
  | none | some null => y
  | some v => v

/-- `x?.name`. -/
def optionalGet (x : Option Json) (name : String) : Option Json :=
  x.bind (prop name)

/-- Is the value truthy? `JSON.parse` does not give not-a-number. -/
def truthy : Option Json → Bool
  | none | some null => false
  | some (bool b) => b
  | some (num printed) => printed ≠ text "0"
  | some (str s) => s ≠ []
  | some _ => true

/-- `value === "s"`. -/
def isText (s : Text) : Option Json → Bool
  | some (str s') => s' = s
  | _ => false

/-- `value === null`. -/
def isNull : Json → Bool
  | null => true
  | _ => false

/-- `x || y`. -/
def orFalsy (x : Option Json) (y : Json) : Json :=
  match x with
  | none => y
  | some v => if truthy (some v) then v else y

/-- `x === y`. Two arrays or objects that were parsed apart are never the same. -/
def strictEq : Option Json → Option Json → Bool
  | none, none => true
  | some null, some null => true
  | some (bool b), some (bool b') => b = b'
  | some (num n), some (num n') => n = n'
  | some (str s), some (str s') => s = s'
  | _, _ => false

/-! ## Arrays -/

/-- What reading a property of `null` throws, and calling a method that the value lacks. -/
def typeError : String := "TypeError"

/-- `value.name` for any value. -/
def get (name : String) : Json → Except String (Option Json)
  | null => .error typeError
  | v => .ok (v.prop name)

/-- `list.unshift(v)`. -/
def unshift (v : Json) : Json → Except String Json
  | arr l => .ok (arr (v :: l))
  | _ => .error typeError

/-- `list.push(v)`. -/
def push (v : Json) : Json → Except String Json
  | arr l => .ok (arr (l ++ [v]))
  | _ => .error typeError

/-- `list.filter(e => e.id !== id)` for a number. -/
def filterId (id : Text) : Json → Except String Json
  | arr l =>
    if l.any isNull then .error typeError
    else .ok (arr (l.filter fun e => !strictEq (e.prop "id") (some (num id))))
  | _ => .error typeError

/-- Put `v` in place of the first element whose `id` is the one of `v`. -/
def replaceId (v : Json) : List Json → Except String (List Json)
  | [] => .ok []
  | e :: l =>
    if e.isNull || v.isNull then .error typeError
    else if strictEq (e.prop "id") (v.prop "id") then .ok (v :: l)
    else (replaceId v l).map (e :: ·)

/-- `list[list.findIndex(e => e.id === v.id)] = v`, where there is such an element. -/
def setId (v : Json) : Json → Except String Json
  | arr l => (replaceId v l).map arr
  | _ => .error typeError

/-- Put `v` in place of the first element that has the same property `name`. -/
def replaceProp (name : String) (v : Json) : List Json → Except String (List Json)
  | [] => .ok []
  | e :: l =>
    if e.isNull || v.isNull then .error typeError
    else if strictEq (e.prop name) (v.prop name) then .ok (v :: l)
    else (replaceProp name v l).map (e :: ·)

/-- `value.name = v` for an object; `none` is `undefined`. -/
def setProp (name : String) (v : Option Json) : Json → Json
  | obj fields =>
    obj (match v with
      | some v => fields ++ [(text name, v)]
      | none => fields.filter fun field => field.1 ≠ text name)
  | e => e

/-- The first element with this number as its `id` goes through `f`, if there is one: what becomes
of the list then. -/
def updateId (id : Text) (f : Json → Json) : List Json → Except String (Option (List Json))
  | [] => .ok none
  | e :: l =>
    if e.isNull then .error typeError
    else if strictEq (e.prop "id") (some (num id)) then .ok (some (f e :: l))
    else (updateId id f l).map fun found => found.map (e :: ·)

/-- The integer a number is printed as. -/
def integer (printed : Text) : Option ℤ :=
  let digits := match printed with
    | 45 :: rest => rest
    | _ => printed
  if digits ≠ [] ∧ digits.all fun c => 48 ≤ c ∧ c ≤ 57 then
    let n : ℕ := digits.foldl (fun n c => 10 * n + (c.toNat - 48)) 0
    some (if printed.head? = some 45 then -(n : ℤ) else n)
  else none

/-- `x || 0` for the count of something. A value that is no integer counts as none. -/
def countOf (x : Option Json) : ℤ :=
  match x with
  | some (num printed) => (integer printed).getD 0
  | _ => 0

/-- The number that is the `id` of a value. -/
def idNumber (v : Json) : Option Text :=
  match v.prop "id" with
  | some (num n) => some n
  | _ => none

/-- The numbers that are ids in an array. -/
def ids : Json → List Text
  | arr l => l.filterMap idNumber
  | _ => []

mutual

/-- `String(value)`. -/
def toText : Json → Text
  | null => text "null"
  | bool b => if b then text "true" else text "false"
  | num printed => printed
  | str s => s
  | arr elems => joinText elems
  | obj _ => text "[object Object]"

/-- `elems.join()`, in which `null` counts as the empty text. -/
def joinText : List Json → Text
  | [] => []
  | [v] => if v.isNull then [] else v.toText
  | v :: rest => (if v.isNull then [] else v.toText) ++ text "," ++ joinText rest

end

/-- Only the same number is strictly equal to a number. -/
theorem strictEq_num {v : Option Json} {n : Text} :
    strictEq v (some (num n)) = true ↔ v = some (num n) := by
  rcases v with _ | ⟨_ | _ | _ | _ | _ | _⟩ <;> simp [strictEq]

/-- The id of an entry is a number. -/
theorem idNumber_eq_some {v : Json} {n : Text} :
    v.idNumber = some n ↔ v.prop "id" = some (num n) := by
  unfold idNumber
  split <;> simp_all

/-- Two values whose `id`s are the same have the same number as their id, or none. -/
theorem idNumber_eq_of_strictEq {v w : Json}
    (h : strictEq (v.prop "id") (w.prop "id") = true) : v.idNumber = w.idNumber := by
  unfold idNumber
  rcases hv : v.prop "id" with _ | ⟨_ | _ | _ | _ | _ | _⟩ <;>
    rcases hw : w.prop "id" with _ | ⟨_ | _ | _ | _ | _ | _⟩ <;> simp_all [strictEq]

/-- Filtering drops the id and nothing else. -/
theorem filterMap_filter_id (id : Text) (l : List Json) :
    (l.filter fun e => !strictEq (e.prop "id") (some (num id))).filterMap idNumber =
      (l.filterMap idNumber).filter (· ≠ id) := by
  induction l with
  | nil => rfl
  | cons e l ih =>
    by_cases h : e.idNumber = some id
    -- the entry has the id, and goes from both lists
    · have hid := strictEq_num.mpr (idNumber_eq_some.mp h)
      simp [hid, h, ih]
    · have hid : strictEq (e.prop "id") (some (num id)) = false :=
        Bool.eq_false_iff.mpr fun hid => h (idNumber_eq_some.mpr (strictEq_num.mp hid))
      cases hn : e.idNumber with
      | none => simp [hid, hn, ih]
      | some n =>
        have hne : n ≠ id := fun heq => h (by rw [hn, heq])
        simp [hid, hn, hne, ih]

/-- Replacing an element keeps the ids, and puts no `null` in. -/
theorem replaceId_spec {v : Json} {l l' : List Json} (h : replaceId v l = .ok l')
    (hl : l.any isNull = false) :
    l'.filterMap idNumber = l.filterMap idNumber ∧ l'.any isNull = false := by
  induction l generalizing l' with
  | nil =>
    cases h
    exact ⟨rfl, rfl⟩
  | cons e l ih =>
    rw [List.any_cons, Bool.or_eq_false_iff] at hl
    unfold replaceId at h
    split at h
    · cases h
    · next hnull =>
      rw [Bool.not_eq_true, Bool.or_eq_false_iff] at hnull
      split at h
      · next hid =>
        -- the value has the id of the element it takes the place of
        cases h
        refine ⟨?_, by rw [List.any_cons, hnull.2, hl.2]; rfl⟩
        rw [List.filterMap_cons, List.filterMap_cons, idNumber_eq_of_strictEq hid]
      · cases hrest : replaceId v l with
        | error e' =>
          rw [hrest] at h
          cases h
        | ok l'' =>
          rw [hrest] at h
          cases h
          obtain ⟨hids, hnull'⟩ := ih hrest hl.2
          refine ⟨by rw [List.filterMap_cons, List.filterMap_cons, hids], ?_⟩
          rw [List.any_cons, hl.1, hnull']
          rfl

/-! ## Properties of objects -/

/-- A property that is set is found. -/
theorem prop_setProp_self {name : String} {v : Json} (fields : List (Text × Json)) :
    ((obj fields).setProp name (some v)).prop name = some v := by
  simp [setProp, prop]

/-- Setting one property leaves the others. -/
theorem prop_setProp_of_ne {name other : String} (h : text name ≠ text other) (v : Option Json)
    (e : Json) : (e.setProp name v).prop other = e.prop other := by
  cases e with
  | obj fields =>
    cases v with
    | some v => simp [setProp, prop, h]
    | none =>
      simp only [setProp, prop, ← List.filter_reverse, List.find?_filter]
      congr 2
      funext field
      by_cases hfield : field.1 = text other
      · simp [hfield, Ne.symm h]
      · simp [hfield]
  | _ => rfl

theorem eq_obj_of_prop {name : String} {e v : Json} (h : e.prop name = some v) :
    ∃ fields, e = obj fields := by
  cases e with
  | obj fields => exact ⟨fields, rfl⟩
  | _ => cases h

/-- The element with this id goes through `f`, where no element is `null`. -/
theorem updateId_eq {l : List Json} (h : l.any isNull = false) (id : Text) (f : Json → Json) :
    updateId id f l =
      .ok ((l.findIdx? fun e => strictEq (e.prop "id") (some (num id))).map (l.modify · f)) := by
  induction l with
  | nil => rfl
  | cons e l ih =>
    rw [List.any_cons, Bool.or_eq_false_iff] at h
    rw [updateId, h.1, if_neg Bool.false_ne_true, List.findIdx?_cons]
    split
    · rfl
    · rw [ih h.2]
      cases l.findIdx? fun e => strictEq (e.prop "id") (some (num id)) <;> rfl

end Json

end JsStd
