import CarpetSrv.Foundation.ReadCursor
import Mathlib.Data.Fin.Rev
import Mathlib.Data.List.OfFn
import Mathlib.Logic.Equiv.Basic

/-!
# Operands with side effects

An expression whose operands read from one cursor is evaluated in an order
that the language may leave open. An order is a permutation of the operands:
the operand `order k` is evaluated as the `k`-th one. When the operands are
calls of one reader, an order permutes the values that it returns.
-/

namespace Foundation

variable {ε α β γ : Type} {n k : Nat}

abbrev leftToRight : Equiv.Perm (Fin n) := Equiv.refl _

abbrev rightToLeft : Equiv.Perm (Fin n) := Fin.revPerm

/-- Run readers one after the other and list what they return. -/
def collect : List (Reader ε α β) → Reader ε α (List β)
  | [] => pure []
  | m :: ms => do
      let value ← m
      let values ← collect ms
      return value :: values

/-- Evaluate the operands in this order. The result is indexed by operand. -/
def evaluate [Inhabited β] (order : Equiv.Perm (Fin n)) (operand : Fin n → Reader ε α β) :
    Reader ε α (Fin n → β) := do
  let values ← collect (List.ofFn fun k => operand (order k))
  return fun i => values.getD (order.symm i) default

/-- Call a function of three arguments with evaluated operands. -/
def callThree (f : β → β → β → γ) (argument : Fin 3 → β) : γ :=
  f (argument 0) (argument 1) (argument 2)

/-- Three operands read in a row, whatever the order. -/
theorem evaluate_three [Inhabited β] (order : Equiv.Perm (Fin 3)) (m : Reader ε α β) :
    (evaluate order fun _ => m) = do
      let u ← m
      let v ← m
      let w ← m
      return fun i => [u, v, w].getD (order.symm i) default := by
  simp [evaluate, collect, List.ofFn_succ]

theorem collect_reads {m : Fin n → Reader ε α β} {xs : Fin n → List α} {v : Fin n → β}
    (h : ∀ k, Reads (m k) (xs k) (v k)) :
    Reads (collect (List.ofFn m)) (List.ofFn xs).flatten (List.ofFn v) := by
  induction n with
  | zero => exact Reads.pure []
  | succ n ih =>
      rw [List.ofFn_succ, List.ofFn_succ, List.ofFn_succ, List.flatten_cons]
      apply Reads.bind (h 0)
      exact (ih fun k => h k.succ).map (v 0 :: ·)

/-- Each operand gets the value that stands at the place of its turn. -/
theorem evaluate_reads [Inhabited β] (order : Equiv.Perm (Fin n)) {m : Reader ε α β}
    {xs : Fin n → List α} {v : Fin n → β} (h : ∀ k, Reads m (xs k) (v k)) :
    Reads (evaluate order fun _ => m) (List.ofFn xs).flatten fun i => v (order.symm i) := by
  have hread := (collect_reads h).map fun values i => values.getD (order.symm i).val default
  have hvalues : (fun i => (List.ofFn v).getD (order.symm i).val default) =
      fun i => v (order.symm i) := by
    funext i
    simp [List.getD_eq_getElem?_getD]
  rwa [hvalues] at hread

/-- Only a constant family is the same in every order. -/
theorem forall_perm_eq_iff (v : Fin n → β) :
    (∀ order : Equiv.Perm (Fin n), (fun i => v (order.symm i)) = v) ↔ ∀ i j, v i = v j := by
  constructor
  · intro h i j
    have hswap := congrFun (h (Equiv.swap i j)) j
    simpa using hswap
  · intro h order
    funext i
    exact h _ i

/-- The first symbols of a list that is long enough, as a family. -/
theorem exists_ofFn_append (n : Nat) (xs : List α) (h : n ≤ xs.length) :
    ∃ (v : Fin n → α) (ys : List α), xs = List.ofFn v ++ ys := by
  refine ⟨fun i => xs[i], xs.drop n, ?_⟩
  have htake : List.ofFn (fun i : Fin n => xs[i]) = xs.take n := by
    apply List.ext_getElem
    · simp [h]
    · intro i _ _
      simp
  rw [htake, List.take_append_drop]

/-- The first symbols of a list that is long enough, as blocks of one length. -/
theorem exists_blocks_append (n k : Nat) (xs : List α) (h : n * k ≤ xs.length) :
    ∃ (v : Fin n → Fin k → α) (ys : List α),
      xs = (List.ofFn fun i => List.ofFn (v i)).flatten ++ ys := by
  induction n generalizing xs with
  | zero => exact ⟨Fin.elim0, xs, rfl⟩
  | succ n ih =>
      rw [Nat.succ_mul] at h
      obtain ⟨first, rest, rfl⟩ := exists_ofFn_append k xs (by omega)
      rw [List.length_append, List.length_ofFn] at h
      obtain ⟨v, ys, rfl⟩ := ih rest (by omega)
      refine ⟨Fin.cons first v, ys, ?_⟩
      simp [List.ofFn_succ]

/-- Each block stands behind the blocks before it. -/
theorem take_drop_blocks (v : Fin n → Fin k → α) (ys : List α) (i : Fin n) :
    (((List.ofFn fun i => List.ofFn (v i)).flatten ++ ys).drop (k * i)).take k =
      List.ofFn (v i) := by
  induction n with
  | zero => exact i.elim0
  | succ n ih =>
      rw [List.ofFn_succ, List.flatten_cons, List.append_assoc]
      cases i using Fin.cases with
      | zero => simp
      | succ i =>
          have hdrop : k * (i.succ : Nat) = (List.ofFn (v 0)).length + k * i := by
            rw [List.length_ofFn, Fin.val_succ, Nat.mul_succ, Nat.add_comm]
          rw [hdrop, ← List.drop_drop, List.drop_left]
          exact ih (fun i => v i.succ) i

theorem mem_blocks {v : Fin n → Fin k → α} {x : α} :
    x ∈ (List.ofFn fun i => List.ofFn (v i)).flatten ↔ ∃ i j, v i j = x := by
  simp [List.mem_flatten, List.mem_ofFn]

theorem take_blocks (v : Fin n → Fin k → α) (ys : List α) :
    ((List.ofFn fun i => List.ofFn (v i)).flatten ++ ys).take (n * k) =
      (List.ofFn fun i => List.ofFn (v i)).flatten := by
  have hlen : (List.ofFn fun i => List.ofFn (v i)).flatten.length = n * k := by
    simp [List.length_flatten, Function.comp_def]
  rw [← hlen, List.take_left]

end Foundation
