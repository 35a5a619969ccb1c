import CarpetSrv.Foundation.StreamTransducer

/-!
# Cipher feedback

In cipher feedback mode each symbol is combined with a pad that is computed
from a register of ciphertext symbols, and the register then moves on by the
new one. The register forgets: once as many symbols were fed as it holds, it
depends on these symbols only. A decryption that was started with the wrong
register is therefore right again after that many symbols.

## Implementation notes

The block cipher is any function from a key and a register to a pad. The width
of the register is the length of the initial one.
-/

namespace Foundation

/-- A mode of operation: the initial register of a key, the pad that a register
gives, and how a symbol is combined with the pad. -/
structure CipherFeedback (Key Symbol : Type) where
  initial : Key → List Symbol
  pad : Key → List Symbol → Symbol
  combine : Symbol → Symbol → Symbol
  combine_combine : ∀ x p, combine (combine x p) p = x

namespace CipherFeedback

variable {Key Symbol : Type}

@[ext]
structure Context (Key Symbol : Type) where
  key : Key
  register : List Symbol
  deriving DecidableEq

/-- The register moves on by one symbol of the ciphertext. -/
def Context.shift (ctx : Context Key Symbol) (c : Symbol) : Context Key Symbol :=
  { ctx with register := (ctx.register ++ [c]).drop 1 }

/-- The register moves on by a piece of the ciphertext. -/
def Context.feed (ctx : Context Key Symbol) (piece : List Symbol) : Context Key Symbol :=
  piece.foldl Context.shift ctx

section Register

variable {ctx ctx' : Context Key Symbol} {piece : List Symbol}

@[simp] theorem Context.feed_key (ctx : Context Key Symbol) (piece : List Symbol) :
    (ctx.feed piece).key = ctx.key := by
  induction piece generalizing ctx with
  | nil => rfl
  | cons c piece ih => exact ih _

/-- The register holds the end of what was in it and of what was fed to it. -/
theorem Context.feed_register (ctx : Context Key Symbol) (piece : List Symbol) :
    (ctx.feed piece).register = (ctx.register ++ piece).drop piece.length := by
  induction piece generalizing ctx with
  | nil => simp [feed]
  | cons c piece ih =>
      have hone : 1 ≤ (ctx.register ++ [c]).length := by simp
      calc
        (ctx.feed (c :: piece)).register = ((ctx.shift c).feed piece).register := rfl
        _ = ((ctx.register ++ [c]).drop 1 ++ piece).drop piece.length := ih _
        _ = ((ctx.register ++ [c] ++ piece).drop 1).drop piece.length := by
          rw [List.drop_append_of_le_length hone]
        _ = (ctx.register ++ c :: piece).drop (c :: piece).length := by
          rw [List.drop_drop, ← List.append_cons, List.length_cons, Nat.add_comm]

@[simp] theorem Context.length_feed_register (ctx : Context Key Symbol) (piece : List Symbol) :
    (ctx.feed piece).register.length = ctx.register.length := by
  rw [feed_register, List.length_drop, List.length_append, Nat.add_sub_cancel]

/-- Registers of one width agree as soon as both hold nothing but what was fed. -/
theorem Context.feed_eq (hk : ctx.key = ctx'.key)
    (hw : ctx.register.length = ctx'.register.length)
    (hlen : ctx.register.length ≤ piece.length) : ctx.feed piece = ctx'.feed piece := by
  have hregister : (ctx.feed piece).register = (ctx'.feed piece).register := by
    have hlen' : ctx'.register.length ≤ piece.length := hw ▸ hlen
    rw [feed_register, feed_register, List.drop_append, List.drop_append,
      List.drop_of_length_le hlen, List.drop_of_length_le hlen', hw]
  exact Context.ext ((feed_key ..).trans (hk.trans (feed_key ..).symm)) hregister

end Register

variable (m : CipherFeedback Key Symbol)

def start (key : Key) : Context Key Symbol := ⟨key, m.initial key⟩

def encryptSymbol (ctx : Context Key Symbol) (p : Symbol) : Symbol × Context Key Symbol :=
  (m.combine p (m.pad ctx.key ctx.register), ctx.shift (m.combine p (m.pad ctx.key ctx.register)))

def decryptSymbol (ctx : Context Key Symbol) (c : Symbol) : Symbol × Context Key Symbol :=
  (m.combine c (m.pad ctx.key ctx.register), ctx.shift c)

theorem decrypt_encrypt (ctx : Context Key Symbol) (plain : List Symbol) :
    (transduce m.decryptSymbol ctx (transduce m.encryptSymbol ctx plain).1).1 = plain := by
  induction plain generalizing ctx with
  | nil => rfl
  | cons p plain ih =>
      simp only [transduce, encryptSymbol, decryptSymbol, m.combine_combine]
      exact congrArg _ (ih _)

/-- The stream cipher that the mode gives. -/
def toStreamCipher : StreamCipher Key Symbol (Context Key Symbol) where
  encryptInit := m.start
  decryptInit := m.start
  encryptSymbol := m.encryptSymbol
  decryptSymbol := m.decryptSymbol
  decrypt_encrypt key plain := m.decrypt_encrypt (m.start key) plain

/-- Decrypting moves the register on by what is decrypted. -/
theorem decrypt_ctx (ctx : Context Key Symbol) (piece : List Symbol) :
    (m.toStreamCipher.decrypt ctx piece).2 = ctx.feed piece := by
  induction piece generalizing ctx with
  | nil => rfl
  | cons c piece ih => exact ih (ctx.shift c)

section Resynchronisation

variable {ctx ctx' : Context Key Symbol} {piece : List Symbol}

/-- Two decryptions of one piece agree behind the width of the register. -/
theorem decrypt_agree (hk : ctx.key = ctx'.key)
    (hw : ctx.register.length = ctx'.register.length) :
    (m.toStreamCipher.decrypt ctx piece).1.drop ctx.register.length =
      (m.toStreamCipher.decrypt ctx' piece).1.drop ctx.register.length := by
  rw [StreamCipher.decrypt_drop, StreamCipher.decrypt_drop, decrypt_ctx, decrypt_ctx]
  by_cases hlen : ctx.register.length ≤ piece.length
  · have hhead : ctx.register.length ≤ (piece.take ctx.register.length).length :=
      Nat.le_of_eq (List.length_take_of_le hlen).symm
    rw [Context.feed_eq hk hw hhead]
  · rw [List.drop_of_length_le (Nat.le_of_lt (Nat.not_le.mp hlen))]
    rfl

/-- A piece of a ciphertext that is decrypted from any register of the right
width yields the plaintext behind that width. -/
theorem decrypt_resynchronises {key : Key} {plain before : List Symbol} (hk : ctx.key = key)
    (hw : ctx.register.length = (m.initial key).length)
    (h : before ++ piece <+:
      (m.toStreamCipher.encrypt (m.toStreamCipher.encryptInit key) plain).1) :
    (m.toStreamCipher.decrypt ctx piece).1.drop (m.initial key).length =
      ((plain.drop before.length).take piece.length).drop (m.initial key).length := by
  have hright : (m.toStreamCipher.decrypt ((m.start key).feed before) piece).1 =
      (plain.drop before.length).take piece.length := by
    have hwhole := m.toStreamCipher.decrypt_of_isPrefix h
    calc
      (m.toStreamCipher.decrypt ((m.start key).feed before) piece).1 =
          (m.toStreamCipher.decrypt (m.start key) (before ++ piece)).1.drop before.length := by
        rw [StreamCipher.decrypt_drop, decrypt_ctx, List.take_left, List.drop_left]
      _ = (plain.take (before ++ piece).length).drop before.length :=
        congrArg (List.drop before.length) hwhole
      _ = (plain.drop before.length).take piece.length := by
        rw [List.length_append, List.take_drop]
  rw [← hright, ← hw]
  apply m.decrypt_agree
  · rw [hk, Context.feed_key]
    rfl
  · rw [hw, Context.length_feed_register]
    rfl

end Resynchronisation

end CipherFeedback

end Foundation
