import CarpetSrv.Network.PacketRound
import Mathlib.Logic.Relation

/-!
# Handlers that throw

A handler decodes its packet before it acts on it. A decoder that throws
finds nothing done, and so does the constructor of the cipher behind it, but
for the disconnect that a wrong token has caused. The loop catches the
exception and clears the read buffer.

## Implementation notes

The handshake asks `RAND_bytes` for a token behind the change of the player's
name, so the results assume that it answers.
-/

namespace CarpetSrv.Network.Connection

open Foundation Foundation.ExceptState Relation Packet Utils

variable {κ : Type} {env : Environment κ} {ambient : Ambient} {token : Vector Byte 4}
  {size : Nat} {s t : Connection κ} {id : Byte} {e : RuntimeError}

/-- The members that a handler acts on. -/
structure Untouched (s t : Connection κ) : Prop where
  status : t.status = s.status
  cipher : t.cipher = s.cipher
  verifyToken : t.verifyToken = s.verifyToken
  queue : t.queue = s.queue
  player : t.player = s.player

namespace Untouched

theorem trans {u : Connection κ} (h : Untouched s t) (h' : Untouched t u) : Untouched s u where
  status := h'.status.trans h.status
  cipher := h'.cipher.trans h.cipher
  verifyToken := h'.verifyToken.trans h.verifyToken
  queue := h'.queue.trans h.queue
  player := h'.player.trans h.player

theorem setReadBuffer (s : Connection κ) (b : Buffer) : Untouched s { s with readBuffer := b } := by
  constructor <;> rfl

/-- The disconnect for a wrong token changes two flags. -/
theorem tokenChecked (s : Connection κ) (p : SharedKeyPacket) :
    Untouched s (tokenChecked p s) := by
  unfold Connection.tokenChecked
  split_ifs <;> constructor <;> rfl

end Untouched

/-- Every throw of a handler comes before the first change that it makes. -/
theorem untouched_of_error (hrand : ambient.rand = some token)
    (h : Handles env ambient s id (.error e t)) : Untouched s t := by
  cases h with
  | malformed _ => exact .setReadBuffer s _
  | unseeded _ _ hnone =>
      rw [hrand] at hnone
      cases hnone
  | badKey _ _ _ => exact (Untouched.setReadBuffer s _).trans (.tokenChecked _ _)

/-! ## The loop -/

/-- A round of the loop with these two states, and the loop goes on behind it. -/
def GoesOn (env : Environment κ) (ambient : Ambient) (size : Nat) (s t : Connection κ) : Prop :=
  s.readBuffer.readPos < size ∧ processRound env ambient s = .ok true t

/-- The rounds made so far do not matter for what `process_packets` leaves. -/
theorem processPackets_of_rounds (h : ReflTransGen (GoesOn env ambient size) s t) :
    processPackets env ambient size s = processPackets env ambient size t := by
  induction h with
  | refl => rfl
  | tail _ hround ih => exact ih.trans (processPackets_of_round hround.1 hround.2)

/-- The loop ends with a cleared read buffer in the round whose handler throws. -/
theorem processPackets_of_throw {handler : ConnM κ Unit} (hpos : s.readBuffer.readPos < size)
    (hid : s.readBuffer.data[s.readBuffer.readPos]? = some id)
    (hl : (packetsHandlers env ambient).lookup id = some handler)
    (hthrow : handler (entered id s) = .error e t) :
    processPackets env ambient size s = { t with readBuffer := t.readBuffer.clearBuffer } := by
  have hround : processRound env ambient s = .error e t := by
    rw [processRound_of_lookup hid hl, hthrow]
  rw [processPackets_unfold, if_pos hpos, hround]

/-- A handler that throws has changed nothing but the read buffer, and when the
loop of `process_packets` has called it, after any rounds before, the loop
leaves an empty read buffer and nothing else changed. -/
theorem throwing_handler_untouched {handler : ConnM κ Unit} (hrand : ambient.rand = some token)
    (hl : (packetsHandlers env ambient).lookup id = some handler)
    (hthrow : handler s = .error e t) :
    Untouched s t ∧
      ∀ (size : Nat) (start u : Connection κ),
        ReflTransGen (GoesOn env ambient size) start u → u.readBuffer.readPos < size →
        u.readBuffer.data[u.readBuffer.readPos]? = some id → entered id u = s →
          Untouched s (processPackets env ambient size start) ∧
            (processPackets env ambient size start).readBuffer.data = [] ∧
            (processPackets env ambient size start).readBuffer.readPos = 0 := by
  have hh : Handles env ambient s id (handler s) := handles_of_lookup hl
  rw [hthrow] at hh
  have hs : Untouched s t := untouched_of_error hrand hh
  refine ⟨hs, ?_⟩
  intro size start u hrounds hpos hid hentered
  have hend : processPackets env ambient size start =
      { t with readBuffer := t.readBuffer.clearBuffer } := by
    rw [processPackets_of_rounds hrounds]
    exact processPackets_of_throw hpos hid hl (by rw [hentered, hthrow])
  rw [hend]
  exact ⟨hs.trans (.setReadBuffer t _), rfl, rfl⟩

/-- A client in LOGIN that answers with a wrong token and a secret of one byte. -/
def shortSecret : Connection Byte :=
  { lastActivity := 0
    verifyToken := [1, 2, 3, 4]
    status := .login
    readBuffer := { data := (ClientPacket.sharedKey [7] [5]).encode } }

theorem throwing_handler_untouched_shortSecret :
    ∃ t, handleSharedKeyPacket chainEnvironment chainAmbient (entered 0xFC shortSecret) =
        .error .keySize t ∧ t.mustDisconnect = true ∧
      Untouched (entered 0xFC shortSecret)
        (processPackets chainEnvironment chainAmbient 7 shortSecret) := by
  have hl : (packetsHandlers chainEnvironment chainAmbient).lookup 0xFC =
      some (handleSharedKeyPacket chainEnvironment chainAmbient) := rfl
  refine ⟨_, rfl, rfl, ?_⟩
  exact ((throwing_handler_untouched rfl hl rfl).2 7 shortSecret shortSecret .refl
    (by decide) (by decide) rfl).1

end CarpetSrv.Network.Connection
