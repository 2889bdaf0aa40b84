import OAuth2Monitoring.JsStd.Basic
import Mathlib.Data.List.Nodup

/-!
# Storage of a browser

A storage area as the HTML standard has it: keys with their values, enumerated in an order that
removing a key does not disturb.
-/

namespace JsStd

/-- A storage area: its keys with their values, in the order of `key(i)`. -/
structure Storage where
  entries : List (Text × Text)
  nodup : (entries.map Prod.fst).Nodup

namespace Storage

/-- `storage.length`. -/
def length (s : Storage) : ℕ := s.entries.length

/-- `storage.key(i)`; `none` is `null`. -/
def key (s : Storage) (i : ℕ) : Option Text := s.entries[i]?.map Prod.fst

/-- `storage.getItem(key)`. -/
def getItem (s : Storage) (key : Text) : Option Text :=
  (s.entries.find? fun e => e.1 = key).map Prod.snd

/-- `storage.removeItem(key)`. -/
def removeItem (s : Storage) (key : Text) : Storage where
  entries := s.entries.filter fun e => e.1 ≠ key
  nodup := s.nodup.sublist (List.filter_sublist.map _)

variable {s : Storage} {front back : List (Text × Text)} {e : Text × Text}

theorem key_of_entries_eq (h : s.entries = front ++ e :: back) : s.key front.length = some e.1 := by
  rw [key, h, List.getElem?_append_right (Nat.le_refl _), Nat.sub_self]
  rfl

/-- Removing a key takes its entry out from between the others. -/
theorem entries_removeItem (h : s.entries = front ++ e :: back) :
    (s.removeItem e.1).entries = front ++ back := by
  have hnodup := s.nodup
  rw [h, List.map_append, List.map_cons, List.nodup_middle, List.nodup_cons, ← List.map_append]
    at hnodup
  -- no other entry has this key
  have hne : ∀ e' ∈ front ++ back, e'.1 ≠ e.1 := fun e' he' heq =>
    hnodup.1 (heq ▸ List.mem_map_of_mem he')
  have hkeep : ∀ l, l ⊆ front ++ back → l.filter (fun e' => e'.1 ≠ e.1) = l := fun l hl =>
    List.filter_eq_self.mpr fun e' he' => decide_eq_true (hne e' (hl he'))
  change s.entries.filter (fun e' => e'.1 ≠ e.1) = front ++ back
  rw [h, List.filter_append, List.filter_cons_of_neg (by simp),
    hkeep front (List.subset_append_left _ _), hkeep back (List.subset_append_right _ _)]

/-- What is found under a key when only the entries of some keys are left. -/
theorem getItem_of_entries_eq_filter {s' : Storage} (keep : Text → Bool)
    (h : s'.entries = s.entries.filter fun e => keep e.1) (key : Text) :
    s'.getItem key = if keep key then s.getItem key else none := by
  rw [getItem, h, List.find?_filter, getItem]
  split
  · next hkeep =>
    -- among the entries of a key that is kept nothing is filtered
    congr 2
    funext e
    by_cases he : e.1 = key
    · simp [he, hkeep]
    · simp [he]
  · next hkeep =>
    rw [Option.map_eq_none_iff, List.find?_eq_none]
    rintro e - hfound
    rw [decide_eq_true_eq, decide_eq_true_eq] at hfound
    exact hkeep (hfound.2 ▸ hfound.1)

end Storage

end JsStd
