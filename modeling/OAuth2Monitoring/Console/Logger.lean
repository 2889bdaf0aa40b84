import OAuth2Monitoring.JsStd.Storage

/-!
# What the logger does to the browser's storage

Earlier builds kept log levels in `localStorage`. `purgePersistedLevels` removes them when the
logger is loaded, in a loop that takes entries out of the storage it counts its index over.

## Main results

* `entries_purgeFrom`: what the loop has left behind it, and has not touched yet.
* `purgePersistedLevels_spec`: the persisted levels are gone, and nothing else.
-/

namespace Console

open JsStd

/-- Is this the key of a level that was persisted? -/
def isPersistedLevel (key : Text) : Bool :=
  key = text "loglevel" ∨ startsWith key (text "loglevel:")

/-- The body of the loop, for the index `i`. -/
def purgeAt (storage : Storage) (i : ℕ) : Storage :=
  match storage.key i with
  | some key => if isPersistedLevel key then storage.removeItem key else storage
  -- `null` is no text, and starts with none
  | none => storage

/-- The loop, from the index `i` down to 0. -/
def purgeFrom (storage : Storage) (i : ℤ) : Storage :=
  if i ≥ 0 then purgeFrom (purgeAt storage i.toNat) (i - 1) else storage
termination_by (i + 1).toNat

/-- `purgePersistedLevels`. There may be no storage to be had, which is caught. -/
def purgePersistedLevels (localStorage : Option Storage) : Option Storage :=
  localStorage.map fun storage => purgeFrom storage (storage.length - 1)

variable {storage : Storage} {front back : List (Text × Text)} {e : Text × Text}

/-- One turn of the loop keeps its entry or takes it out. -/
theorem entries_purgeAt (h : storage.entries = front ++ e :: back) :
    (purgeAt storage front.length).entries =
      front ++ ([e].filter fun e => !isPersistedLevel e.1) ++ back := by
  rw [purgeAt, Storage.key_of_entries_eq h]
  dsimp only
  split
  · next hlevel => simp [Storage.entries_removeItem h, hlevel]
  · next hlevel => simp [h, hlevel]

/-- The entries in front of the index are filtered, and those after it stay as they are: what a
turn takes out has all of them in front of it that are still to come. -/
theorem entries_purgeFrom (h : storage.entries = front ++ back) :
    (purgeFrom storage (front.length - 1)).entries =
      (front.filter fun e => !isPersistedLevel e.1) ++ back := by
  -- each turn moves the entry at the index behind it, or takes it out
  induction front using List.reverseRecOn generalizing storage back with
  | nil =>
    rw [purgeFrom, if_neg (by simp)]
    exact h
  | append_singleton front e ih =>
    have hindex : ((front ++ [e]).length : ℤ) - 1 = front.length := by simp
    have hentry : storage.entries = front ++ e :: back := by rw [h, List.append_assoc]; rfl
    have hturn := entries_purgeAt hentry
    rw [List.append_assoc] at hturn
    rw [hindex, purgeFrom, if_pos (Int.natCast_nonneg _), Int.toNat_natCast, ih hturn,
      List.filter_append, List.append_assoc]

/-- The keys of persisted levels are removed and no others, and what is left keeps its order and
its values. -/
theorem purgePersistedLevels_spec (storage : Storage) :
    ∃ left, purgePersistedLevels (some storage) = some left ∧
      left.entries = storage.entries.filter (fun e => !isPersistedLevel e.1) ∧
      ∀ key, left.getItem key = if isPersistedLevel key then none else storage.getItem key := by
  have hentries : (purgeFrom storage (storage.length - 1)).entries =
      storage.entries.filter fun e => !isPersistedLevel e.1 := by
    have hall := entries_purgeFrom storage.entries.append_nil.symm
    rwa [List.append_nil] at hall
  refine ⟨purgeFrom storage (storage.length - 1), rfl, hentries, fun key => ?_⟩
  rw [Storage.getItem_of_entries_eq_filter (fun key => !isPersistedLevel key) hentries]
  cases isPersistedLevel key <;> rfl

end Console
