import Mathlib.Data.List.Forall2

/-!
# Changing one element of a list

What `List.set` and `List.modify` do to the number of elements with a property, and what is said of
two lists that agree up to such changes.

## Main results

* `countP_set_add`, `countP_modify`: the number of elements with a property when one of them
  changes.
* `countP_zip_add`: two lists that are compared place by place, the property never being lost: those
  that gained it and those that still lack it are those that lacked it.
-/

namespace List

variable {α : Type} {p : α → Bool} {l l' : List α} {k : ℕ} {a : α}

/-- The number of elements with a property, when one of them is replaced: `countP_set` without the
subtraction. -/
theorem countP_set_add (p : α → Bool) (h : l[k]? = some a) (b : α) :
    (l.set k b).countP p + (if p a then 1 else 0) = l.countP p + if p b then 1 else 0 := by
  obtain ⟨hlt, rfl⟩ := getElem?_eq_some_iff.mp h
  have hle : (if p l[k] then 1 else 0) ≤ l.countP p := by
    split
    · next hp => exact countP_pos_iff.mpr ⟨_, getElem_mem hlt, hp⟩
    · exact Nat.zero_le _
  rw [countP_set hlt]
  omega

/-- The number of elements with a property, when one of them changes. -/
theorem countP_modify (p : α → Bool) (f : α → α) (h : l[k]? = some a) :
    (l.modify k f).countP p + (if p a then 1 else 0) =
      l.countP p + if p (f a) then 1 else 0 := by
  rw [modify_eq_set_getElem?, h]
  exact countP_set_add p h (f a)

/-- A change that keeps the property keeps the number. -/
theorem countP_modify_of_same {f : α → α} (h : ∀ a, p (f a) = p a) (l : List α) (k : ℕ) :
    (l.modify k f).countP p = l.countP p := by
  cases hk : l[k]? with
  | none => rw [modify_eq_self (getElem?_eq_none_iff.mp hk)]
  | some a =>
    have hcount := countP_modify p f hk
    rw [h a] at hcount
    omega

/-- A relation that every element has to itself and to what it is changed to. -/
theorem forall₂_modify {R : α → α → Prop} {f : α → α} (hrefl : ∀ a, R a a) (hf : ∀ a, R a (f a))
    (l : List α) (k : ℕ) : Forall₂ R l (l.modify k f) := by
  induction l generalizing k with
  | nil =>
    rw [modify_nil]
    exact .nil
  | cons b l ih =>
    cases k with
    | zero => exact .cons (hf b) (forall₂_same.mpr fun a _ => hrefl a)
    | succ k => exact .cons (hrefl b) (ih k)

/-- A transitive relation, element by element. -/
theorem forall₂_trans {R : α → α → Prop} (htrans : ∀ a b c, R a b → R b c → R a c)
    {l₁ l₂ l₃ : List α} (h : Forall₂ R l₁ l₂) (h' : Forall₂ R l₂ l₃) : Forall₂ R l₁ l₃ := by
  induction h generalizing l₃ with
  | nil => exact h'
  | cons hab _ ih =>
    cases h' with
    | cons hbc h' => exact .cons (htrans _ _ _ hab hbc) (ih h')

/-- Where the property is never lost, those that gained it and those that still lack it are those
that lacked it. -/
theorem countP_zip_add (h : Forall₂ (fun a b => p a = true → p b = true) l l') :
    ((l.zip l').countP fun x => !p x.1 && p x.2) + l'.countP (fun b => !p b) =
      l.countP fun a => !p a := by
  induction h with
  | nil => rfl
  | @cons a b l l' hab _ ih =>
    simp only [zip_cons_cons, countP_cons]
    -- an element that has the property keeps it, so it counts on neither side
    cases ha : p a with
    | true =>
      rw [hab ha]
      simpa using ih
    | false =>
      cases p b <;> simp <;> omega

end List
