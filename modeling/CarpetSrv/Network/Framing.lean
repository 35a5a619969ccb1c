import CarpetSrv.Network.HandlerSpec
import CarpetSrv.Network.ConnectionRun

/-!
# Framing

One round of the loop starts at the id of a packet. Whether it ends behind
the packet depends on the status alone: a handler that ignores the packet
leaves its whole body to be read as ids, and so does the keep-alive handler,
which never reads its body.
-/

namespace CarpetSrv.Network.Connection

open Foundation Foundation.ExceptState Packet Utils

variable {κ : Type}

/-- The handler of the packet reads its body in this status. -/
def BodyRead (status : Status) : ClientPacket → Prop
  | .serverPing _ => status = .handshake
  | .clientProtocol .. => status = .handshake
  | .sharedKey .. => status = .login
  | .clientInfo .. => True
  | .keepAlive _ => False
  | .playerPosition .. => True

instance (status : Status) : ∀ p : ClientPacket, Decidable (BodyRead status p)
  | .serverPing _ | .clientProtocol .. => inferInstanceAs (Decidable (status = .handshake))
  | .sharedKey .. => inferInstanceAs (Decidable (status = .login))
  | .clientInfo .. | .playerPosition .. => .isTrue trivial
  | .keepAlive _ => .isFalse id

/-- The read buffer in which the handler of a packet is entered has the body next. -/
theorem rest_entered {s : Connection κ} {p : ClientPacket} {ys : List Byte}
    (hrest : s.readBuffer.rest = p.encode ++ ys) :
    (entered p.id s).readBuffer.rest = p.body ++ ys :=
  s.readBuffer.rest_advance (l := [p.id]) hrest

theorem decrypt_eq_ok {keypair : KeyPair} {encrypted decrypted : List Byte} {b b' : Buffer}
    (h : SharedKeyPacket.decryptWithPrivateKey keypair encrypted b = .ok decrypted b') :
    b' = b := by
  unfold SharedKeyPacket.decryptWithPrivateKey at h
  cases hd : keypair.decryptWithPrivateKey encrypted with
  | none =>
      rw [hd] at h
      cases h
  | some _ =>
      rw [hd] at h
      cases h
      rfl

/-- A shared-key packet that is decoded is consumed, whatever its arrays decrypt to. -/
theorem sharedKey_consumed {keypair : KeyPair} {beyond : Nat → Byte} {b b' : Buffer}
    {encSecret encToken ys : List Byte} {p : SharedKeyPacket}
    (hwf : (ClientPacket.sharedKey encSecret encToken).WellFormed)
    (hrest : b.rest = (ClientPacket.sharedKey encSecret encToken).body ++ ys)
    (h : SharedKeyPacket.readData keypair beyond b = .ok p b') :
    b' = b.advance (ClientPacket.sharedKey encSecret encToken).body.length := by
  rw [ClientPacket.body, List.append_assoc] at hrest
  have hsecret := Buffer.readBytes_reads beyond encSecret hwf.1 b _ hrest
  have htoken := Buffer.readBytes_reads beyond encToken hwf.2 _ _ (b.rest_advance hrest)
  rw [SharedKeyPacket.readData, bind_of_ok hsecret, bind_of_ok htoken] at h
  obtain ⟨_, b₁, h₁, h⟩ := bind_eq_ok_iff.mp h
  obtain ⟨_, b₂, h₂, h⟩ := bind_eq_ok_iff.mp h
  cases h
  rw [decrypt_eq_ok h₂, decrypt_eq_ok h₁, ReadCursor.advance_advance, ClientPacket.body,
    List.length_append]

section Framing

variable {env : Environment κ} {ambient : Ambient} {s s' : Connection κ} {p : ClientPacket}
  {ys : List Byte} {b : Bool}

/-- A round that returns is a handler that returns. -/
theorem handler_of_round {id : Byte} {handler : ConnM κ Unit}
    (hid : s.readBuffer.data[s.readBuffer.readPos]? = some id)
    (hl : (packetsHandlers env ambient).lookup id = some handler)
    (hret : processRound env ambient s = .ok b s') : handler (entered id s) = .ok () s' := by
  rw [processRound_of_lookup hid hl] at hret
  cases h : handler (entered id s) with
  | ok u t =>
      rw [h] at hret
      cases hret
      rfl
  | error e t =>
      rw [h] at hret
      cases hret

/-- A handler that returns has consumed the body or nothing. -/
theorem handler_readBuffer {handler : ConnM κ Unit}
    (hl : (packetsHandlers env ambient).lookup p.id = some handler) (hwf : p.WellFormed)
    (hrest : s.readBuffer.rest = p.body ++ ys) (hret : handler s = .ok () s') :
    BodyRead s.status p ∧ s'.readBuffer = s.readBuffer.advance p.body.length ∨
      ¬ BodyRead s.status p ∧ s'.readBuffer = s.readBuffer := by
  have hafter : s'.readBuffer = (after handler s).readBuffer := by rw [after_of_ok hret]
  rw [hafter]
  cases p with
  | serverPing ping =>
      obtain rfl : handleServerPingPacket env = handler := Option.some.inj hl
      rw [handleServerPingPacket_readBuffer, after_of_ok (serverPing_reads ping _ _ hrest)]
      split_ifs with hst
      · exact .inl ⟨hst, rfl⟩
      · exact .inr ⟨hst, rfl⟩
  | clientProtocol version username serverHost serverPort =>
      obtain rfl : handleHandshake env ambient = handler := Option.some.inj hl
      rw [handleHandshake_readBuffer,
        after_of_ok (clientProtocol_reads version serverPort hwf.1 hwf.2 _ _ hrest)]
      split_ifs with hst
      · exact .inl ⟨hst, rfl⟩
      · exact .inr ⟨hst, rfl⟩
  | sharedKey secret token =>
      obtain rfl : handleSharedKeyPacket env ambient = handler := Option.some.inj hl
      rw [handleSharedKeyPacket_readBuffer]
      rw [handleSharedKeyPacket_apply] at hret
      split_ifs at hret ⊢ with hst
      · cases hr : SharedKeyPacket.readData env.keypair ambient.beyond s.readBuffer with
        | error e b =>
            rw [hr] at hret
            cases hret
        | ok q b =>
            rw [after_of_ok hr]
            exact .inl ⟨hst, sharedKey_consumed hwf hrest hr⟩
      · exact .inr ⟨hst, rfl⟩
  | clientInfo language renderDistance number gameDifficulty showCape =>
      obtain rfl : handleClientInfo = handler := Option.some.inj hl
      rw [handleClientInfo_readBuffer,
        after_of_ok (clientInfo_reads renderDistance number gameDifficulty showCape hwf _ _ hrest)]
      exact .inl ⟨trivial, rfl⟩
  | keepAlive milliseconds =>
      obtain rfl : handleKeepAlive ambient = handler := Option.some.inj hl
      exact .inr ⟨id, rfl⟩
  | playerPosition x y z stance onGround =>
      obtain rfl : handlePositionPacket env = handler := Option.some.inj hl
      rw [handlePositionPacket_readBuffer,
        after_of_ok (playerPosition_reads _ x y z stance onGround _ _ hrest)]
      exact .inl ⟨trivial, rfl⟩

theorem lookup_id (env : Environment κ) (ambient : Ambient) (p : ClientPacket) :
    ∃ handler, (packetsHandlers env ambient).lookup p.id = some handler := by
  cases p <;> exact ⟨_, rfl⟩

/-- One round that starts at the id of a packet and does not throw ends behind
the packet exactly when the status is one in which its body is read. -/
theorem round_keeps_framing_iff (hwf : p.WellFormed) (hrest : s.readBuffer.rest = p.encode ++ ys)
    (hret : processRound env ambient s = .ok b s') :
    s'.readBuffer.readPos = s.readBuffer.readPos + p.encode.length ↔ BodyRead s.status p := by
  obtain ⟨handler, hl⟩ := lookup_id env ambient p
  have hid := s.readBuffer.getElem?_of_rest hrest
  have hh := handler_of_round hid hl hret
  have hlen := p.length_encode
  have hpos := List.length_pos_iff.mpr p.body_ne_nil
  rcases handler_readBuffer hl hwf (rest_entered hrest) hh with ⟨hread, hb⟩ | ⟨hread, hb⟩
  · refine iff_of_true ?_ hread
    rw [hb]
    simp only [entered, emit_readBuffer, ReadCursor.advance_readPos]
    omega
  · refine iff_of_false ?_ hread
    rw [hb]
    simp only [entered, emit_readBuffer, ReadCursor.advance_readPos]
    omega

end Framing

/-- A fresh connection whose read buffer holds these bytes. -/
def holding (bytes : List Byte) : Connection Byte :=
  { create 0 with readBuffer := ⟨bytes, 0, []⟩ }

/-- A position packet is consumed in any status, here followed by another byte. -/
theorem round_keeps_framing_iff_position :
    ∃ s', processRound chainEnvironment chainAmbient
        (holding ((ClientPacket.playerPosition 1 2 3 4 1).encode ++ [0xCC])) = .ok true s' ∧
      s'.readBuffer.readPos = 34 := by
  have hrest :
      (holding ((ClientPacket.playerPosition 1 2 3 4 1).encode ++ [0xCC])).readBuffer.rest =
      (ClientPacket.playerPosition 1 2 3 4 1).encode ++ [0xCC] := rfl
  obtain ⟨s', hret⟩ : ∃ s', processRound chainEnvironment chainAmbient
      (holding ((ClientPacket.playerPosition 1 2 3 4 1).encode ++ [0xCC])) = .ok true s' := ⟨_, rfl⟩
  exact ⟨s', hret, (round_keeps_framing_iff (p := .playerPosition 1 2 3 4 1) trivial hrest
    hret).mpr trivial⟩

/-- The id byte of a keep-alive is consumed and its body is next: the first
byte of this one is the id of a position packet. -/
theorem keepAlive_breaks_framing : ∃ s', processRound chainEnvironment chainAmbient
      (holding (ClientPacket.keepAlive 0x0B000000).encode) = .ok true s' ∧
    s'.readBuffer.readPos ≠ (ClientPacket.keepAlive 0x0B000000).encode.length ∧
    s'.readBuffer.data[s'.readBuffer.readPos]? = some 0x0B :=
  ⟨_, rfl, by decide, by decide⟩

end CarpetSrv.Network.Connection
