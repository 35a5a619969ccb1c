import Mathlib.Tactic.Common

/-!
# A list of which only a prefix has arrived

A receiver that looks at fixed storage finds the symbols that have arrived and
a padding symbol in the place of each of the others.
-/

namespace Foundation

variable {α : Type} (pad : α)

/-- The first `k` symbols of a list, and padding in place of the others. -/
def padded : Nat → List α → List α
  | _, [] => []
  | 0, _ :: xs => pad :: padded 0 xs
  | k + 1, x :: xs => x :: padded k xs

@[simp] theorem padded_nil (k : Nat) : padded pad k [] = [] := by
  cases k <;> rfl

@[simp] theorem padded_zero_cons (x : α) (xs : List α) :
    padded pad 0 (x :: xs) = pad :: padded pad 0 xs := rfl

@[simp] theorem padded_succ_cons (k : Nat) (x : α) (xs : List α) :
    padded pad (k + 1) (x :: xs) = x :: padded pad k xs := rfl

@[simp] theorem length_padded (k : Nat) (xs : List α) :
    (padded pad k xs).length = xs.length := by
  induction xs generalizing k with
  | nil => simp
  | cons x xs ih => cases k <;> simp [ih]

theorem padded_append (k : Nat) (xs ys : List α) :
    padded pad k (xs ++ ys) = padded pad k xs ++ padded pad (k - xs.length) ys := by
  induction xs generalizing k with
  | nil => simp
  | cons x xs ih => cases k <;> simp [ih]

/-- Padding looks the same whether it has arrived or not. -/
theorem padded_replicate (k n : Nat) :
    padded pad k (List.replicate n pad) = List.replicate n pad := by
  induction n generalizing k with
  | zero => simp
  | succ n ih => cases k <;> simp [List.replicate_succ, ih]

theorem take_append_replicate (k : Nat) (xs : List α) :
    xs.take k ++ List.replicate (xs.length - k) pad = padded pad k xs := by
  induction xs generalizing k with
  | nil => simp
  | cons x xs ih =>
      cases k with
      | zero =>
          have h := ih 0
          rw [List.take_zero, List.nil_append, Nat.sub_zero] at h
          simp [← h, List.replicate_succ]
      | succ k => simp [ih]

/-- The last symbol has arrived, or it is padding. -/
theorem getLast?_padded (k : Nat) {xs : List α} {x : α} (h : xs.getLast? = some x) :
    (padded pad k xs).getLast? = some x ∨ (padded pad k xs).getLast? = some pad := by
  obtain ⟨init, rfl⟩ := List.getLast?_eq_some_iff.mp h
  rw [padded_append]
  cases k - init.length <;> simp

end Foundation
