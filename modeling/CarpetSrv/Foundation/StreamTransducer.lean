import Mathlib.Data.List.Basic

/-!
# Stateful stream transducers and stream ciphers

A transducer turns one symbol at a time into one symbol and moves its state.
Feeding it two pieces one after the other is feeding it their concatenation,
so a stream may be cut anywhere as long as every symbol is fed once and in
order. A stream cipher is a pair of such transducers with a shared key.

## Implementation notes

The law of a stream cipher speaks about whole streams from the initial state
only. Nothing is assumed about how its two states relate to each other.
-/

namespace Foundation

variable {κ α β : Type}

/-- Feed a list of symbols, returning the outputs and the state reached. -/
def transduce (step : κ → α → β × κ) : κ → List α → List β × κ
  | s, [] => ([], s)
  | s, a :: as =>
      let first := step s a
      let rest := transduce step first.2 as
      (first.1 :: rest.1, rest.2)

section Transduce

variable (step : κ → α → β × κ)

@[simp] theorem transduce_nil (s : κ) : transduce step s [] = ([], s) := rfl

@[simp] theorem length_transduce (s : κ) (as : List α) :
    (transduce step s as).1.length = as.length := by
  induction as generalizing s with
  | nil => rfl
  | cons a as ih => simp [transduce, ih]

theorem transduce_append (s : κ) (as bs : List α) :
    transduce step s (as ++ bs) =
      ((transduce step s as).1 ++ (transduce step (transduce step s as).2 bs).1,
        (transduce step (transduce step s as).2 bs).2) := by
  induction as generalizing s with
  | nil => rfl
  | cons a as ih => simp [transduce, ih]

/-- The output on an initial segment is an initial segment of the output. -/
theorem transduce_take (s : κ) (as : List α) (n : Nat) :
    (transduce step s (as.take n)).1 = (transduce step s as).1.take n := by
  induction as generalizing s n with
  | nil => simp
  | cons a as ih =>
      cases n with
      | zero => simp
      | succ n => simp [transduce, ih]

/-- The output behind an initial segment is that of the rest from the state reached. -/
theorem transduce_drop (s : κ) (as : List α) (n : Nat) :
    (transduce step s as).1.drop n =
      (transduce step (transduce step s (as.take n)).2 (as.drop n)).1 := by
  induction as generalizing s n with
  | nil => simp
  | cons a as ih =>
      cases n with
      | zero => simp
      | succ n => simp [transduce, ih]

end Transduce

/-- A keyed pair of symbol-wise transducers, the second undoing the first. -/
structure StreamCipher (Key Symbol κ : Type) where
  encryptInit : Key → κ
  decryptInit : Key → κ
  encryptSymbol : κ → Symbol → Symbol × κ
  decryptSymbol : κ → Symbol → Symbol × κ
  decrypt_encrypt : ∀ key plain,
    (transduce decryptSymbol (decryptInit key)
      (transduce encryptSymbol (encryptInit key) plain).1).1 = plain

namespace StreamCipher

variable {Key Symbol : Type} (c : StreamCipher Key Symbol κ)

/-- Encrypt a piece of the stream with a context that is already in use. -/
def encrypt (ctx : κ) (plain : List Symbol) : List Symbol × κ :=
  transduce c.encryptSymbol ctx plain

/-- Decrypt a piece of the stream with a context that is already in use. -/
def decrypt (ctx : κ) (cipher : List Symbol) : List Symbol × κ :=
  transduce c.decryptSymbol ctx cipher

@[simp] theorem length_encrypt (ctx : κ) (plain : List Symbol) :
    (c.encrypt ctx plain).1.length = plain.length :=
  length_transduce _ _ _

@[simp] theorem length_decrypt (ctx : κ) (cipher : List Symbol) :
    (c.decrypt ctx cipher).1.length = cipher.length :=
  length_transduce _ _ _

theorem encrypt_append (ctx : κ) (as bs : List Symbol) :
    c.encrypt ctx (as ++ bs) =
      ((c.encrypt ctx as).1 ++ (c.encrypt (c.encrypt ctx as).2 bs).1,
        (c.encrypt (c.encrypt ctx as).2 bs).2) :=
  transduce_append _ _ _ _

theorem decrypt_append (ctx : κ) (as bs : List Symbol) :
    c.decrypt ctx (as ++ bs) =
      ((c.decrypt ctx as).1 ++ (c.decrypt (c.decrypt ctx as).2 bs).1,
        (c.decrypt (c.decrypt ctx as).2 bs).2) :=
  transduce_append _ _ _ _

theorem decrypt_drop (ctx : κ) (cipher : List Symbol) (n : Nat) :
    (c.decrypt ctx cipher).1.drop n =
      (c.decrypt (c.decrypt ctx (cipher.take n)).2 (cipher.drop n)).1 :=
  transduce_drop _ _ _ _

theorem decrypt_take (ctx : κ) (cipher : List Symbol) (n : Nat) :
    (c.decrypt ctx (cipher.take n)).1 = (c.decrypt ctx cipher).1.take n :=
  transduce_take _ _ _ _

/-- Decrypting the received part of a ciphertext yields the same part of the plaintext. -/
theorem decrypt_of_isPrefix {key : Key} {plain received : List Symbol}
    (h : received <+: (c.encrypt (c.encryptInit key) plain).1) :
    (c.decrypt (c.decryptInit key) received).1 = plain.take received.length := by
  have hr : received = (c.encrypt (c.encryptInit key) (plain.take received.length)).1 := by
    rw [encrypt, transduce_take]
    exact List.prefix_iff_eq_take.mp h
  calc
    (c.decrypt (c.decryptInit key) received).1 =
        (c.decrypt (c.decryptInit key)
          (c.encrypt (c.encryptInit key) (plain.take received.length)).1).1 := by rw [← hr]
    _ = plain.take received.length := c.decrypt_encrypt key _

end StreamCipher

end Foundation
