import OAuth2Monitoring.Scripts.Shell

/-!
# jq

The values and filters of jq that the scripts use. How jq reads and prints texts, and how it adds
what is not plain, is not part of the repository: it is the structure `Jq`, and `Jq.Lawful` is what
its manual promises of it.

## Main definitions

* `Json`, `Json.index`, `Json.pick`: values, and `.name`.
* `Jq.plus`, `Jq.sumOf`: `+`, and `.a + .b`.

## Main results

* `Jq.Lawful.sumOf_eq_num_iff`: when a sum is a number.
* `Jq.Lawful.testPositive_output`: the only output that `[ … -gt 0 ]` accepts is one number.
* `Jq.knowing_lawful`: there is a jq that keeps the promises.
-/

namespace Scripts

open GoStd

/-! ## Values -/

/-- A byte that a number is written with. -/
def isNumberByte (c : UInt8) : Bool :=
  isDigit c ∨ c = 43 ∨ c = 45 ∨ c = 46 ∨ c = 69 ∨ c = 101

/-- A byte of a number is no blank. -/
theorem isSpace_of_isNumberByte {c : UInt8} (hc : isNumberByte c = true) : isSpace c = false := by
  simp only [isNumberByte, isDigit, decide_eq_true_eq, UInt8.le_iff_toNat_le,
    ← UInt8.toNat_inj, UInt8.reduceToNat] at hc
  simp only [isSpace, decide_eq_false_iff_not, UInt8.le_iff_toNat_le, ← UInt8.toNat_inj,
    UInt8.reduceToNat]
  omega

/-- A number, by what jq prints of it. -/
structure Number where
  printed : Bytes
  ne_nil : printed ≠ []
  plain : printed.all isNumberByte = true

/-- Is the number 0? It is when all digits in front of the exponent are. -/
def Number.isZero (n : Number) : Bool :=
  (n.printed.takeWhile fun c => c ≠ 69 ∧ c ≠ 101).all fun c => !isDigit c ∨ c = 48

/-- A number that is zero is read as zero. -/
theorem Number.eq_zero_of_integer {n : Number} {z : ℤ} (hz : integer n.printed = some z)
    (hzero : n.isZero = true) : z = 0 := by
  refine Scripts.eq_zero_of_integer hz (fun c hc => ?_) fun c hc hdigit => ?_
  · exact isSpace_of_isNumberByte (List.all_eq_true.mp n.plain c hc)
  · have h := List.all_eq_true.mp hzero c hc
    simpa [hdigit] using h

/-- A value of jq. -/
inductive Json
  | null
  | bool (b : Bool)
  | num (n : Number)
  | str (s : Bytes)
  | arr (elems : List Json)
  | obj (fields : List (Bytes × Json))

namespace Json

/-- `.name`; `none` is an error. -/
def index (name : String) : Json → Option Json
  | obj fields => some ((fields.lookup (ascii name)).getD null)
  | null => some null
  | _ => none

/-- `.a.b` and so on. -/
def pick (path : List String) (v : Json) : Option Json :=
  path.foldlM (fun v name => v.index name) v

/-- What is under the names of an object. -/
def parts : Json → List Json
  | obj fields => fields.map Prod.snd
  | _ => []

/-- The number a value is. -/
def number? : Json → Option Number
  | num n => some n
  | _ => none

/-- Only a number has a number. -/
theorem eq_num_of_number? {v : Json} {n : Number} (h : v.number? = some n) : v = num n := by
  cases v <;> cases h
  rfl

/-- The number a value is, if it is there at all. -/
def count? : Json → Option (Option Number)
  | num n => some (some n)
  | null => some none
  | _ => none

/-- The numbers under these names, some of which may be missing; nothing else may be there. -/
def countsAt (v : Json) (names : List String) : Option (List Number) :=
  (names.mapM fun name => (v.index name).bind count?).map List.reduceOption

theorem countsAt_nil (v : Json) : v.countsAt [] = some [] := rfl

theorem countsAt_cons (name : String) (names : List String) (v : Json) :
    v.countsAt (name :: names) = ((v.index name).bind count?).bind fun o =>
      (v.countsAt names).map (o.toList ++ ·) := by
  unfold countsAt
  rw [List.mapM_cons]
  cases (v.index name).bind count? with
  | none => rfl
  | some o =>
    cases names.mapM fun name => (v.index name).bind count? with
    | none => rfl
    | some os => cases o <;> rfl

mutual

/-- A value without white space, as long as its strings need no escapes. -/
def compact : Json → Bytes
  | null => ascii "null"
  | bool true => ascii "true"
  | bool false => ascii "false"
  | num n => n.printed
  | str s => 34 :: (s ++ [34])
  | arr elems => 91 :: (compactElems elems ++ [93])
  | obj fields => 123 :: (compactFields fields ++ [125])

/-- The elements of an array, in one line. -/
def compactElems : List Json → Bytes
  | [] => []
  | [v] => v.compact
  | v :: w :: elems => v.compact ++ 44 :: compactElems (w :: elems)

/-- The fields of an object, in one line. -/
def compactFields : List (Bytes × Json) → Bytes
  | [] => []
  | [(name, v)] => 34 :: (name ++ 34 :: 58 :: v.compact)
  | (name, v) :: field :: fields =>
    34 :: (name ++ 34 :: 58 :: v.compact) ++ 44 :: compactFields (field :: fields)

end

/-- Where every value is a number, those are the numbers. -/
theorem countsAt_of_numbers {v : Json} {names : List String} {ns : List Number}
    (h : names.mapM (fun name => (v.index name).bind number?) = some ns) :
    v.countsAt names = some ns := by
  induction names generalizing ns with
  | nil =>
    cases h
    rfl
  | cons name names ih =>
    rw [List.mapM_cons] at h
    obtain ⟨n, hname, h⟩ := Option.bind_eq_some_iff.mp h
    obtain ⟨ms, hrest, ⟨⟩⟩ := Option.bind_eq_some_iff.mp h
    obtain ⟨w, hw, hn⟩ := Option.bind_eq_some_iff.mp hname
    obtain rfl := eq_num_of_number? hn
    rw [countsAt_cons, hw, Option.bind_some, count?, Option.bind_some, ih hrest]
    rfl

/-- What is no number starts with a letter, a quote or a bracket. -/
theorem exists_compact_eq_cons {v : Json} (h : v.number? = none) :
    ∃ c rest, v.compact = c :: rest ∧
      isSpace c = false ∧ isDigit c = false ∧ c ≠ 45 ∧ c ≠ 43 := by
  cases v with
  | null => exact ⟨_, _, rfl, by decide⟩
  | bool b => cases b <;> exact ⟨_, _, rfl, by decide⟩
  | num n => cases h
  | str s => exact ⟨_, _, rfl, by decide⟩
  | arr elems => exact ⟨_, _, rfl, by decide⟩
  | obj fields => exact ⟨_, _, rfl, by decide⟩

theorem compact_ne_nil (v : Json) : v.compact ≠ [] := by
  cases hv : v.number? with
  | none =>
    obtain ⟨c, rest, hprint, -⟩ := exists_compact_eq_cons hv
    rw [hprint]
    exact List.cons_ne_nil _ _
  | some n =>
    obtain rfl := eq_num_of_number? hv
    exact n.ne_nil

end Json

/-! ## The program -/

/-- What the model does not open of jq. -/
structure Jq where
  /-- The values at the front of a text, and whether nothing but them is in it. -/
  read : Bytes → List Json × Bool
  /-- A value, as `jq -c` prints it, and as `jq` does. -/
  print : Json → Bytes
  pretty : Json → Bytes
  /-- The sum of two numbers. -/
  add : Number → Number → Number
  /-- The sum of two values that are neither both numbers nor `null`. -/
  addOther : Json → Json → Option Json
  /-- Whether it exits with 0, from what the filter gave for each value, and whether the text was
  well formed. -/
  succeeds : List (Option Json) → Bool → Bool

namespace Jq

variable (jq : Jq)

/-- `a + b`: `null` can be added to any value and changes nothing. -/
def plus : Json → Json → Option Json
  | .null, w => some w
  | v, .null => some v
  | .num n, .num m => some (.num (jq.add n m))
  | v, w => jq.addOther v w

/-- `.a + .b + …`, of the value. -/
def sumOf (names : List String) (v : Json) : Option Json :=
  match names with
  | [] => none
  | name :: names =>
    (v.index name).bind (names.foldlM fun sum name => (v.index name).bind (jq.plus sum))

/-- What `jq` writes for these values. -/
def output (print : Json → Bytes) (vs : List Json) : Bytes := captured (vs.map print)

/-- The sum of numbers, if there are any. -/
def total : List Number → Option Number
  | [] => none
  | n :: ns => some (ns.foldl jq.add n)

/-- What the manual of jq promises. -/
structure Lawful : Prop where
  /-- What was picked from a text and printed is read as what it was. -/
  read_output : ∀ path text, (jq.read (output jq.print
    ((jq.read text).1.filterMap (Json.pick path)))).1 = (jq.read text).1.filterMap (Json.pick path)
  /-- An object is printed in braces. -/
  print_obj : ∀ fields, ∃ rest, jq.print (.obj fields) = 123 :: rest
  pretty_num : ∀ n, jq.pretty (.num n) = n.printed
  /-- Nothing but a number is printed as one, and nothing that is printed starts with white
  space. -/
  pretty_other : ∀ v, v.number? = none → integer (jq.pretty v) = none
  pretty_front : ∀ v, v.number? = none → ∃ c rest, jq.pretty v = c :: rest ∧ isSpace c = false
  /-- Strings, arrays and objects add up to strings, arrays and objects, if to anything. -/
  count_addOther : ∀ v w u, jq.addOther v w = some u → u.count? = none
  /-- Where every value of a well-formed text is accepted, so is the text. -/
  succeeds_of_single : ∀ v, jq.succeeds [some v] true = true

variable {jq}

namespace Lawful

/-! ### Sums -/

/-- What is no number once will not become one. -/
theorem count_plus (hjq : jq.Lawful) {v w u : Json} (hw : v.count? = none ∨ w.count? = none)
    (h : jq.plus v w = some u) : u.count? = none := by
  unfold plus at h
  split at h
  · cases h
    exact hw.resolve_left (by simp [Json.count?])
  · cases h
    exact hw.resolve_right (by simp [Json.count?])
  · rcases hw with hw | hw <;> cases hw
  · exact hjq.count_addOther _ _ _ h

/-- A sum that is no count stays none. -/
theorem count_foldlM_plus (hjq : jq.Lawful) {v sum u : Json} {names : List String}
    (hsum : sum.count? = none)
    (h : names.foldlM (fun sum name => (v.index name).bind (jq.plus sum)) sum = some u) :
    u.count? = none := by
  induction names generalizing sum with
  | nil =>
    cases h
    exact hsum
  | cons name names ih =>
    rw [List.foldlM_cons] at h
    obtain ⟨sum', hstep, h⟩ := Option.bind_eq_some_iff.mp h
    obtain ⟨w, -, hplus⟩ := Option.bind_eq_some_iff.mp hstep
    exact ih (hjq.count_plus (.inl hsum) hplus) h

/-- What is missing changes nothing, and numbers are added to the sum so far. -/
theorem plus_of_count (jq : Jq) {v w : Json} {o o' : Option Number} (hv : v.count? = some o)
    (hw : w.count? = some o') :
    ∃ u sum, jq.plus v w = some u ∧ u.count? = some sum ∧
      ∀ ns, jq.total (sum.toList ++ ns) = jq.total (o.toList ++ (o'.toList ++ ns)) := by
  cases v <;> cases hv <;> cases w <;> cases hw <;> exact ⟨_, _, rfl, rfl, fun ns => rfl⟩

/-- The sum goes on from a number, or from nothing, as long as there are numbers or nothing. -/
theorem foldlM_plus_iff (hjq : jq.Lawful) {v sum : Json} {o : Option Number} {m : Number}
    {names : List String} (hsum : sum.count? = some o) :
    names.foldlM (fun sum name => (v.index name).bind (jq.plus sum)) sum = some (.num m) ↔
      (v.countsAt names).bind (fun ns => jq.total (o.toList ++ ns)) = some m := by
  induction names generalizing sum o with
  | nil => cases sum <;> cases hsum <;> simp [Json.countsAt_nil, total]
  | cons name names ih =>
    rw [List.foldlM_cons, Json.countsAt_cons]
    cases hname : v.index name with
    | none => simp
    | some w =>
      rw [Option.bind_some, Option.bind_some]
      cases hw : w.count? with
      | some o' =>
        obtain ⟨u, sum', hplus, hu, htotal⟩ := plus_of_count jq hsum hw
        rw [hplus]
        refine (ih hu).trans ?_
        cases v.countsAt names with
        | none => simp
        | some ns => simp [htotal]
      | none =>
        -- what is neither a number nor missing spoils the sum
        refine iff_of_false (fun h => ?_) (by simp)
        obtain ⟨u, hplus, hrest⟩ := Option.bind_eq_some_iff.mp h
        have hnum := hjq.count_foldlM_plus (hjq.count_plus (.inr hw) hplus) hrest
        cases hnum

/-- The sum of what is under the names is a number exactly if nothing but numbers is there, and at
least one of them. -/
theorem sumOf_eq_num_iff (hjq : jq.Lawful) {names : List String} {v : Json} {m : Number} :
    jq.sumOf names v = some (.num m) ↔ (v.countsAt names).bind jq.total = some m := by
  cases names with
  | nil => simp [sumOf, Json.countsAt_nil, total]
  | cons name names =>
    -- the sum may as well start from `null`
    have hnull : jq.sumOf (name :: names) v = (name :: names).foldlM
        (fun sum name => (v.index name).bind (jq.plus sum)) .null := by
      rw [sumOf, List.foldlM_cons]
      cases v.index name <;> rfl
    have hmissing : Json.count? .null = some none := rfl
    rw [hnull]
    exact hjq.foldlM_plus_iff hmissing

/-! ### Output -/

/-- What is printed begins with no blank. -/
theorem exists_pretty_eq_cons (hjq : jq.Lawful) (v : Json) :
    ∃ c rest, jq.pretty v = c :: rest ∧ isSpace c = false := by
  cases hv : v.number? with
  | none => exact hjq.pretty_front v hv
  | some n =>
    -- a number starts with one of its own bytes
    obtain rfl := Json.eq_num_of_number? hv
    rw [hjq.pretty_num]
    obtain ⟨printed, hne, hplain⟩ := n
    cases printed with
    | nil => exact absurd rfl hne
    | cons c rest =>
      refine ⟨c, rest, rfl, ?_⟩
      exact isSpace_of_isNumberByte (List.all_eq_true.mp hplain c List.mem_cons_self)

/-- Of what jq prints, `[ … -gt 0 ]` accepts one number, if it is a positive integer. -/
theorem testPositive_output (hjq : jq.Lawful) (vs : List Json) :
    testPositive (output jq.pretty vs) = 0 ↔
      ∃ n z, vs = [.num n] ∧ integer n.printed = some z ∧ 0 < z := by
  rw [testPositive_eq_zero_iff]
  match vs with
  | [] => simp [output, captured, integer_nil]
  | [v] =>
    have hone : output jq.pretty [v] = jq.pretty v := by simp [output, captured]
    rw [hone]
    cases hv : v.number? with
    | none =>
      rw [hjq.pretty_other v hv]
      refine iff_of_false (by simp) ?_
      rintro ⟨n, z, ⟨⟩, -⟩
      cases hv
    | some n =>
      obtain rfl := Json.eq_num_of_number? hv
      rw [hjq.pretty_num]
      simp
  | v :: w :: vs =>
    -- several lines
    obtain ⟨c, rest, hv, hc⟩ := hjq.exists_pretty_eq_cons v
    have hmany : output jq.pretty (v :: w :: vs) =
        c :: (rest ++ newline :: output jq.pretty (w :: vs)) := by
      simp [output, captured, List.intercalate_cons_cons, hv]
    rw [hmany, integer_eq_none_of_newline hc
      (List.mem_append_right _ List.mem_cons_self)]
    simp

end Lawful

/-! ## A jq for given values -/

/-- A jq that reads the texts of the values in a list, and no others. -/
def knowing (known : List Json) : Jq where
  read text :=
    match known.find? fun v => v.compact = text with
    | some v => ([v], true)
    | none => ([], text = [])
  print := Json.compact
  pretty := Json.compact
  add n m := if n.isZero then m else n
  addOther _ _ := none
  succeeds gave ok := ok && gave.getLast?.all Option.isSome

section Knowing

variable {known : List Json}

theorem read_knowing (text : Bytes) :
    ((knowing known).read text).1 = (known.find? fun v => v.compact = text).toList := by
  unfold knowing
  dsimp only
  split
  · next v hv => rw [hv]; rfl
  · next hv => rw [hv]; rfl

theorem read_knowing_nil : ((knowing known).read []).1 = [] := by
  rw [read_knowing, List.find?_eq_none.mpr fun v _ => by simpa using v.compact_ne_nil]
  rfl

/-- What is picked from a value of the list is in the list. -/
theorem mem_of_pick (hnull : .null ∈ known)
    (hparts : ∀ v ∈ known, ∀ w ∈ v.parts, w ∈ known)
    {path : List String} {v w : Json} (hv : v ∈ known) (hw : v.pick path = some w) :
    w ∈ known := by
  induction path generalizing v with
  | nil =>
    cases hw
    exact hv
  | cons name path ih =>
    obtain ⟨u, hu, hw⟩ := Option.bind_eq_some_iff.mp hw
    refine ih ?_ hw
    cases v with
    | null =>
      cases hu
      exact hnull
    | obj fields =>
      -- what has no field of the name gives `null`, which is why it has to be there
      cases hu
      cases hfield : fields.lookup (ascii name) with
      | none => exact hnull
      | some u =>
        obtain ⟨front, back, hfields, -⟩ := List.lookup_eq_some_iff.mp hfield
        have hpart : (ascii name, u) ∈ fields :=
          hfields ▸ List.mem_append_right _ List.mem_cons_self
        exact hparts _ hv u (List.mem_map_of_mem hpart)
    | _ => cases hu

/-- It keeps the promises, if the list has the parts of its values, and no two of one text. -/
theorem knowing_lawful (hnull : .null ∈ known)
    (hparts : ∀ v ∈ known, ∀ w ∈ v.parts, w ∈ known)
    (hread : ∀ v ∈ known, known.find? (fun w => w.compact = v.compact) = some v) :
    (knowing known).Lawful where
  read_output path text := by
    rw [read_knowing text]
    cases htext : known.find? fun v => v.compact = text with
    | none => exact read_knowing_nil
    | some v =>
      -- one value was read, so one at most is picked, printed and read again
      have hpicked : (some v).toList.filterMap (Json.pick path) = (v.pick path).toList := by
        cases hw : v.pick path <;> simp [hw]
      rw [hpicked]
      cases hw : v.pick path with
      | none => exact read_knowing_nil
      | some w =>
        have hmem : w ∈ known := mem_of_pick hnull hparts (List.mem_of_find?_eq_some htext) hw
        have hone : output (knowing known).print [w] = w.compact := by
          simp [output, captured, knowing]
        rw [Option.toList_some, hone, read_knowing, hread w hmem]
        rfl
  print_obj fields := ⟨_, rfl⟩
  pretty_num n := rfl
  pretty_other v hv := by
    obtain ⟨c, rest, hprint, hc⟩ := Json.exists_compact_eq_cons hv
    show integer v.compact = none
    rw [hprint]
    exact integer_eq_none_of_front hc
  pretty_front v hv := by
    obtain ⟨c, rest, hprint, hc⟩ := Json.exists_compact_eq_cons hv
    exact ⟨c, rest, hprint, hc.1⟩
  count_addOther v w u h := by cases h
  succeeds_of_single v := rfl

end Knowing

end Jq

end Scripts
