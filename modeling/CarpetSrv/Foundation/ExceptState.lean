import Mathlib.Order.RelClasses
import Mathlib.Tactic.SplitIfs

/-!
# Computations that keep their state when they throw

An `EStateM` computation without backtracking is how a method that mutates an
object and may throw behaves: after a throw the mutations made so far stay.
This file gives its application lemmas and a rule set for facts about the
state reached on both exits.

## Implementation notes

`after` forgets which exit was taken. A relation that is reflexive and
transitive is therefore preserved by every sequential composition, and
`Moves` packages exactly that closure.
-/

namespace Foundation.ExceptState

variable {ε σ α β : Type}

/-- The state of a result, whether it is a return or a throw. -/
def exitState : EStateM.Result ε σ α → σ
  | .ok _ s => s
  | .error _ s => s

/-- The state in which a computation stops. -/
def after (m : EStateM ε σ α) (s : σ) : σ := exitState (m s)

/-- The value a computation returned, if it did not throw. -/
def returned (m : EStateM ε σ α) (s : σ) : Option α :=
  match m s with
  | .ok a _ => some a
  | .error _ _ => none

theorem after_of_ok {m : EStateM ε σ α} {s s' : σ} {a : α} (h : m s = .ok a s') :
    after m s = s' := by
  rw [after, h]
  rfl

theorem after_of_error {m : EStateM ε σ α} {s s' : σ} {e : ε} (h : m s = .error e s') :
    after m s = s' := by
  rw [after, h]
  rfl

@[simp] theorem pure_apply (a : α) (s : σ) :
    (pure a : EStateM ε σ α) s = .ok a s := rfl

@[simp] theorem throw_apply (e : ε) (s : σ) :
    (throw e : EStateM ε σ α) s = .error e s := rfl

@[simp] theorem get_apply (s : σ) : (get : EStateM ε σ σ) s = .ok s s := rfl

@[simp] theorem modify_apply (f : σ → σ) (s : σ) :
    (modify f : EStateM ε σ PUnit) s = .ok PUnit.unit (f s) := rfl

@[simp] theorem ite_run (c : Prop) [Decidable c] (m m' : EStateM ε σ α) (s : σ) :
    (if c then m else m') s = if c then m s else m' s := by
  split_ifs <;> rfl

theorem bind_apply (m : EStateM ε σ α) (f : α → EStateM ε σ β) (s : σ) :
    (m >>= f) s = match m s with
      | .ok a s' => f a s'
      | .error e s' => .error e s' := rfl

theorem bind_of_ok {m : EStateM ε σ α} {s s' : σ} {a : α} (h : m s = .ok a s')
    (f : α → EStateM ε σ β) : (m >>= f) s = f a s' := by
  rw [bind_apply, h]

theorem bind_of_error {m : EStateM ε σ α} {s s' : σ} {e : ε} (h : m s = .error e s')
    (f : α → EStateM ε σ β) : (m >>= f) s = .error e s' := by
  rw [bind_apply, h]

theorem after_bind_of_ok {m : EStateM ε σ α} {s s' : σ} {a : α} (h : m s = .ok a s')
    (f : α → EStateM ε σ β) : after (m >>= f) s = after (f a) s' := by
  simp only [after, bind_of_ok h]

/-- A composition returns exactly when both halves return. -/
theorem bind_eq_ok_iff {m : EStateM ε σ α} {f : α → EStateM ε σ β} {s t : σ} {b : β} :
    (m >>= f) s = .ok b t ↔ ∃ a s', m s = .ok a s' ∧ f a s' = .ok b t := by
  rw [bind_apply]
  cases m s with
  | ok a s' =>
      constructor
      · intro h
        exact ⟨a, s', rfl, h⟩
      · rintro ⟨_, _, h, hf⟩
        cases h
        exact hf
  | error e s' => simp

/-- A composition of two computations that return. -/
theorem bind_ok {m : EStateM ε σ α} {f : α → EStateM ε σ β} {s t u : σ} {a : α} {b : β}
    (hm : m s = .ok a t) (hf : f a t = .ok b u) : (m >>= f) s = .ok b u :=
  (bind_of_ok hm f).trans hf

/-- Every execution of `m` moves the state along `R`. -/
def Moves (R : σ → σ → Prop) (m : EStateM ε σ α) : Prop :=
  ∀ s, R s (after m s)

section Moves

variable {R : σ → σ → Prop}

theorem Moves.pure [Std.Refl R] (a : α) : Moves R (pure a : EStateM ε σ α) :=
  fun s => Std.Refl.refl s

theorem Moves.throw [Std.Refl R] (e : ε) : Moves R (throw e : EStateM ε σ α) :=
  fun s => Std.Refl.refl s

theorem Moves.bind [IsTrans σ R] {m : EStateM ε σ α} {f : α → EStateM ε σ β}
    (hm : Moves R m) (hf : ∀ a, Moves R (f a)) : Moves R (m >>= f) := by
  intro s
  have hs := hm s
  cases h : m s with
  | ok a s' =>
      rw [after_of_ok h] at hs
      rw [after_bind_of_ok h]
      exact IsTrans.trans _ _ _ hs (hf a s')
  | error e s' =>
      rw [after_of_error h] at hs
      rw [after_of_error (bind_of_error h f)]
      exact hs

end Moves

end Foundation.ExceptState
