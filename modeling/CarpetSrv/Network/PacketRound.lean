import CarpetSrv.Network.Framing
import CarpetSrv.Network.ReadBuffer

/-!
# A round on a complete packet

When the bytes of a client packet are next in the read buffer and its handler
accepts it in the status at hand, one round of the loop calls that handler
once with the values on the wire. `Acted` says what the handler leaves behind.

## Implementation notes

The handler of a keep-alive acts on its packet and reads nothing of it, so the
part that a round consumes is a function of the packet.
-/

namespace CarpetSrv.Network.Connection

open Foundation Foundation.ExceptState Foundation.BoundedLoop Packet Utils Buffer

variable {κ : Type}

/-! ## Calls of handlers -/

/-- What `process_packets` does with a packet. -/
inductive Processing
  | dispatched (packetId : Byte)
  | handled (p : HandledPacket)
  deriving DecidableEq

def Processing.ofEffect : Effect → Option Processing
  | .dispatched packetId => some (.dispatched packetId)
  | .handled p => some (.handled p)
  | _ => none

/-- The calls of handlers and the packets that they acted on, in order. -/
def processing (s : Connection κ) : List Processing := observe Processing.ofEffect s

/-- The packet that the handler decodes from the values on the wire. -/
def decoded (env : Environment κ) : ClientPacket → HandledPacket
  | .serverPing ping => .serverPing (serverPingPacket ping)
  | .clientProtocol version username serverHost serverPort =>
      .clientProtocol (clientProtocolPacket version username serverHost serverPort)
  | .sharedKey secret token =>
      .sharedKey ⟨(env.keypair.decryptWithPrivateKey secret).getD [],
        (env.keypair.decryptWithPrivateKey token).getD []⟩
  | .clientInfo language renderDistance number gameDifficulty showCape =>
      .clientInfo (clientInfoPacket language renderDistance number gameDifficulty showCape)
  | .keepAlive _ => .keepAlive
  | .playerPosition x y z stance onGround =>
      .playerPosition (playerPositionPacket env.argumentOrder x y z stance onGround)

/-- The packet is dispatched, and its handler acts on it. -/
def callOf (env : Environment κ) (p : ClientPacket) : List Processing :=
  [.dispatched p.id, .handled (decoded env p)]

def statusAfter : ClientPacket → Status → Status
  | .serverPing _, _ => .ping
  | .clientProtocol .., _ => .login
  | .sharedKey .., _ => .play
  | _, status => status

def playerAfter (env : Environment κ) : ClientPacket → Player → Player
  | .clientProtocol _ username _ _ => Player.setUsername (username.map (BitVec.setWidth 8))
  | .clientInfo language renderDistance number gameDifficulty showCape => fun player =>
      let p := clientInfoPacket language renderDistance number gameDifficulty showCape
      ((player.setLanguage p.language).setShowCape p.showCape).setRenderDistance p.renderDistance
  | .playerPosition x y z stance onGround =>
      let p := playerPositionPacket env.argumentOrder x y z stance onGround
      Player.setPosition p.location.x p.location.y p.location.z
  | _ => id

/-- The part of the body that the handler reads. -/
def readBody : ClientPacket → List Byte
  | .keepAlive _ => []
  | p => p.body

/-- The bytes of the packet that a round consumes. -/
def front (p : ClientPacket) : List Byte := p.id :: readBody p

/-- The handler of the packet acts on it in this status. -/
def Accepts (env : Environment κ) (ambient : Ambient) (status : Status) : ClientPacket → Prop
  | .serverPing _ => status = .handshake
  | .clientProtocol .. => status = .handshake ∧ ambient.rand.isSome = true
  | .sharedKey secret token => status = .login ∧
      (env.keypair.decryptWithPrivateKey secret).map List.length = some 16 ∧
      (env.keypair.decryptWithPrivateKey token).isSome = true
  | _ => True

instance (env : Environment κ) (ambient : Ambient) (status : Status) : ∀ p : ClientPacket,
    Decidable (Accepts env ambient status p)
  | .serverPing _ => inferInstanceAs (Decidable (status = .handshake))
  | .clientProtocol .. => inferInstanceAs (Decidable (_ ∧ _))
  | .sharedKey _ _ => inferInstanceAs (Decidable (_ ∧ _ ∧ _))
  | .clientInfo .. | .keepAlive _ | .playerPosition .. => .isTrue trivial

/-! ## What the handlers leave behind -/

/-- The handler of the packet has acted on it. -/
structure Acted (env : Environment κ) (p : ClientPacket) (s t : Connection κ) : Prop where
  readBuffer : t.readBuffer = s.readBuffer
  pendingRead : t.socket.pendingRead = s.socket.pendingRead
  processing : processing t = processing s ++ [.handled (decoded env p)]
  status : t.status = statusAfter p s.status
  player : t.player = s.player.map (playerAfter env p)
  cipher : p.id ≠ 0xFC → s.cipher = none → t.cipher = none

section Acted

variable {env : Environment κ} {s : Connection κ}

theorem WritesOnly.cipher_eq_none {t : Connection κ} (h : WritesOnly s t)
    (hc : s.cipher = none) : t.cipher = none := by
  have hd := h.decryptCtx
  rw [hc] at hd
  exact Option.map_eq_none_iff.mp hd

theorem acted_pinged (ping : Byte) :
    Acted env (.serverPing ping) s (pinged env (serverPingPacket ping) s) where
  readBuffer := pinged_readBuffer ..
  pendingRead := addPacketToQueue_pendingRead ..
  processing := by
    apply (observe_pinged env s (fun _ _ => rfl) _).trans
    rw [show (Processing.ofEffect (.enqueued _)).toList = [] from rfl, List.append_nil]
    rfl
  status := rfl
  player := (addPacketToQueue_player ..).trans (Option.map_id' ..).symm
  cipher _ hc := (addPacketToQueue_writesOnly env _ _).cipher_eq_none hc

theorem processing_usePlayer (f : Player → Player) (s : Connection κ) :
    processing (usePlayer f s) = processing s :=
  observe_usePlayer f s rfl

theorem processing_versionChecked (p : ClientProtocolPacket) :
    processing (versionChecked env p s) = processing s := by
  refine versionChecked_keeps (I := fun t => processing t = processing s) ?_ ?_ rfl
  · intro t f h
    rw [processing_usePlayer, h]
  · intro reason _
    apply (observe_disconnectWith env _ s (fun _ _ => rfl) rfl).trans
    simp only [Processing.ofEffect, Option.toList_none, List.append_nil]
    rfl

theorem versionChecked_cipher (p : ClientProtocolPacket) (hc : s.cipher = none) :
    (versionChecked env p s).cipher = none := by
  refine versionChecked_keeps (I := fun t => t.cipher = none) ?_ ?_ hc
  · intro t f h
    rw [usePlayer_cipher, h]
  · intro reason _
    unfold disconnectWith
    dsimp only
    rw [usePlayer_cipher]
    exact (addPacketToQueue_writesOnly env _ _).cipher_eq_none hc

theorem versionChecked_player (p : ClientProtocolPacket) :
    (versionChecked env p s).player = s.player.map (Player.setUsername p.username) := by
  unfold versionChecked
  rw [usePlayer_player]
  split_ifs
  · simp [disconnectWith]
  · rfl

theorem acted_greeted (version : Byte) (username serverHost : List Short) (serverPort : CInt)
    (token : Vector Byte 4) :
    Acted env (.clientProtocol version username serverHost serverPort) s
      (greeted env token (clientProtocolPacket version username serverHost serverPort) s) where
  readBuffer := greeted_readBuffer ..
  pendingRead := (addPacketToQueue_pendingRead ..).trans (versionChecked_pendingRead ..)
  processing := by
    apply (observe_greeted env s (fun _ _ => rfl) token _).trans
    rw [show (Processing.ofEffect (.enqueued _)).toList = [] from rfl, List.append_nil]
    exact congrArg (· ++ _) (processing_versionChecked _)
  status := rfl
  player := (addPacketToQueue_player ..).trans (versionChecked_player _)
  cipher _ hc := (addPacketToQueue_writesOnly env _ _).cipher_eq_none
    (versionChecked_cipher (s := s) _ hc)

theorem acted_loggedIn {encSecret encToken secret token : List Byte}
    (hs : env.keypair.decryptWithPrivateKey encSecret = some secret)
    (ht : env.keypair.decryptWithPrivateKey encToken = some token) (cipher : AESCipher κ) :
    Acted env (.sharedKey encSecret encToken) s (loggedIn env cipher ⟨secret, token⟩ s) where
  readBuffer := loggedIn_readBuffer ..
  pendingRead := by simp [loggedIn]
  processing := by
    apply (observe_loggedIn env s (fun _ _ => rfl) cipher _).trans
    rw [observe_tokenChecked s rfl]
    simp [processing, Processing.ofEffect, decoded, hs, ht]
  status := rfl
  player := by simp [loggedIn, playerAfter]
  cipher h _ := absurd rfl h

theorem acted_informed (language : List Short) (renderDistance number : CInt)
    (gameDifficulty showCape : Byte) :
    Acted env (.clientInfo language renderDistance number gameDifficulty showCape) s
      (informed (clientInfoPacket language renderDistance number gameDifficulty showCape) s) where
  readBuffer := informed_readBuffer ..
  pendingRead := congrArg Socket.pendingRead (usePlayer_socket ..)
  processing := (observe_emit _ _ _).trans (congrArg (· ++ _) (processing_usePlayer _ s))
  status := usePlayer_status ..
  player := usePlayer_player ..
  cipher _ hc := (usePlayer_cipher ..).trans hc

theorem acted_keptAlive (milliseconds : CInt) (now : Int) :
    Acted env (.keepAlive milliseconds) s (keptAlive now s) where
  readBuffer := rfl
  pendingRead := rfl
  processing := observe_emit _ _ _
  status := rfl
  player := (Option.map_id' ..).symm
  cipher _ hc := hc

theorem acted_positioned (x y z stance : Double) (onGround : Byte) :
    Acted env (.playerPosition x y z stance onGround) s
      (positioned (playerPositionPacket env.argumentOrder x y z stance onGround) s) where
  readBuffer := positioned_readBuffer ..
  pendingRead := congrArg Socket.pendingRead (usePlayer_socket ..)
  processing := (observe_emit _ _ _).trans (congrArg (· ++ _) (processing_usePlayer _ s))
  status := usePlayer_status ..
  player := usePlayer_player ..
  cipher _ hc := (usePlayer_cipher ..).trans hc

end Acted

/-! ## Rounds on complete packets -/

section Round

variable {env : Environment κ} {ambient : Ambient} {s : Connection κ} {p : ClientPacket}
  {ys : List Byte}

/-- The handler that accepts a packet reads its part of the body and acts on it. -/
theorem handler_accepts {handler : ConnM κ Unit}
    (hl : (packetsHandlers env ambient).lookup p.id = some handler) (hwf : p.WellFormed)
    (hacc : Accepts env ambient s.status p) (hrest : s.readBuffer.rest = readBody p ++ ys) :
    ∃ t, handler s = .ok () t ∧
      Acted env p { s with readBuffer := s.readBuffer.advance (readBody p).length } t := by
  cases p with
  | serverPing ping =>
      obtain rfl : handleServerPingPacket env = handler := Option.some.inj hl
      have hst : s.status = .handshake := hacc
      refine ⟨_, ?_, acted_pinged ping⟩
      rw [handleServerPingPacket_apply, if_pos hst, serverPing_reads ping _ _ hrest]
      rfl
  | clientProtocol version username serverHost serverPort =>
      obtain rfl : handleHandshake env ambient = handler := Option.some.inj hl
      obtain ⟨token, hrand⟩ := Option.isSome_iff_exists.mp hacc.2
      refine ⟨_, ?_, acted_greeted version username serverHost serverPort token⟩
      rw [handleHandshake_apply, if_pos hacc.1,
        clientProtocol_reads version serverPort hwf.1 hwf.2 _ _ hrest]
      simp only [hrand]
      rfl
  | sharedKey encSecret encToken =>
      obtain rfl : handleSharedKeyPacket env ambient = handler := Option.some.inj hl
      obtain ⟨hst, hsecret, htoken⟩ := hacc
      obtain ⟨secret, hs, hlen⟩ := Option.map_eq_some_iff.mp hsecret
      obtain ⟨token, ht⟩ := Option.isSome_iff_exists.mp htoken
      refine ⟨_, ?_, acted_loggedIn hs ht (cipherOf env secret)⟩
      rw [handleSharedKeyPacket_apply, if_pos hst,
        sharedKey_reads ambient.beyond hwf.1 hwf.2 hs ht _ _ hrest]
      simp only [if_neg (not_not.mpr hlen)]
      rfl
  | clientInfo language renderDistance number gameDifficulty showCape =>
      obtain rfl : handleClientInfo = handler := Option.some.inj hl
      refine ⟨_, ?_, acted_informed language renderDistance number gameDifficulty showCape⟩
      rw [handleClientInfo_apply, clientInfo_reads renderDistance number gameDifficulty showCape
        hwf _ _ hrest]
      rfl
  | keepAlive milliseconds =>
      obtain rfl : handleKeepAlive ambient = handler := Option.some.inj hl
      have hnone : s.readBuffer.advance 0 = s.readBuffer := ReadCursor.advance_zero _
      refine ⟨keptAlive ambient.now s, rfl, ?_⟩
      rw [readBody, List.length_nil, hnone]
      exact acted_keptAlive milliseconds ambient.now
  | playerPosition x y z stance onGround =>
      obtain rfl : handlePositionPacket env = handler := Option.some.inj hl
      refine ⟨_, ?_, acted_positioned x y z stance onGround⟩
      rw [handlePositionPacket_apply, playerPosition_reads _ x y z stance onGround _ _ hrest]
      rfl

/-- One round has dispatched the packet, and its handler has acted on it. -/
structure Called (env : Environment κ) (p : ClientPacket) (s t : Connection κ) : Prop where
  readBuffer : t.readBuffer = s.readBuffer.advance (front p).length
  pendingRead : t.socket.pendingRead = s.socket.pendingRead
  processing : processing t = processing s ++ callOf env p
  status : t.status = statusAfter p s.status
  player : t.player = s.player.map (playerAfter env p)
  cipher : p.id ≠ 0xFC → s.cipher = none → t.cipher = none

/-- A round on a packet calls its handler once, with the values on the wire. -/
theorem round_calls (env : Environment κ) (ambient : Ambient) (hwf : p.WellFormed)
    (hacc : Accepts env ambient s.status p)
    (hrest : s.readBuffer.rest = front p ++ ys) :
    ∃ t, processRound env ambient s = .ok true t ∧ Called env p s t := by
  obtain ⟨handler, hl⟩ := lookup_id env ambient p
  have hentered : (entered p.id s).readBuffer.rest = readBody p ++ ys :=
    s.readBuffer.rest_advance (l := [p.id]) hrest
  obtain ⟨t, hret, h⟩ := handler_accepts (s := entered p.id s) hl hwf hacc hentered
  refine ⟨t, ?_, ⟨?_, h.pendingRead, ?_, h.status, h.player, h.cipher⟩⟩
  · rw [processRound_of_lookup (s.readBuffer.getElem?_of_rest hrest) hl, hret]
  · rw [h.readBuffer]
    exact (ReadCursor.advance_advance ..).trans (congrArg _ (Nat.add_comm ..))
  · have hid : processing (entered p.id s) = processing s ++ [.dispatched p.id] :=
      observe_emit _ _ _
    calc
      processing t = processing (entered p.id s) ++ [.handled (decoded env p)] := h.processing
      _ = processing s ++ [.dispatched p.id] ++ [.handled (decoded env p)] := by rw [hid]
      _ = processing s ++ callOf env p := List.append_assoc ..

end Round

/-! ## The loop -/

section Loop

variable {env : Environment κ} {ambient : Ambient} {size : Nat} {s t : Connection κ}

/-- The loop goes on while a round asks it to. The fuel is never used up. -/
theorem processPackets_unfold (env : Environment κ) (ambient : Ambient) (size : Nat)
    (s : Connection κ) :
    processPackets env ambient size s =
      if s.readBuffer.readPos < size then
        match processRound env ambient s with
        | .ok true t => processPackets env ambient size t
        | .ok false t => t
        | .error _ t => { t with readBuffer := t.readBuffer.clearBuffer }
      else s := by
  have hloop := loop_unfold (fun s : Connection κ => s.readBuffer.readPos < size)
    (processRound env ambient) (fun s => size - s.readBuffer.readPos)
    (fun s t hc h => by
      have := (round_progress h).1
      omega)
    (fun s hc => Nat.sub_pos_of_lt hc) (Nat.sub_le size s.readBuffer.readPos)
  unfold processPackets
  rw [hloop]
  split_ifs with hc
  · cases h : processRound env ambient s with
    | ok b t => cases b <;> rfl
    | error e t => rfl
  · rfl

/-- Nothing is parsed when the loop bound does not exceed the position. -/
theorem processPackets_of_le (h : size ≤ s.readBuffer.readPos) :
    processPackets env ambient size s = s := by
  rw [processPackets_unfold, if_neg (Nat.not_lt.mpr h)]

theorem processPackets_of_round (h : s.readBuffer.readPos < size)
    (hround : processRound env ambient s = .ok true t) :
    processPackets env ambient size s = processPackets env ambient size t := by
  rw [processPackets_unfold, if_pos h, hround]

/-- The loop ends behind one packet when it reaches its bound there. -/
theorem processPackets_calls {p : ClientPacket} {ys : List Byte} (hwf : p.WellFormed)
    (hacc : Accepts env ambient s.status p) (hrest : s.readBuffer.rest = front p ++ ys)
    (h : s.readBuffer.readPos < size) (hle : size ≤ s.readBuffer.readPos + (front p).length) :
    Called env p s (processPackets env ambient size s) := by
  obtain ⟨t, hround, hcalled⟩ := round_calls env ambient hwf hacc hrest
  have hpos : size ≤ t.readBuffer.readPos := by
    rw [hcalled.readBuffer]
    exact hle
  rwa [processPackets_of_round h hround, processPackets_of_le hpos]

end Loop

/-! ## Read completions without a cipher -/

section Read

variable {env : Environment κ} {ambient : Ambient} {s : Connection κ} {bytes : List Byte}

/-- A connection that has posted its first read. -/
def opened (player : Player) (now : Int) : Connection κ := handleConnection player (create now)

/-- The read position of the region that `start_read` posts behind position `n`. -/
def nextPosition (n : Nat) : Nat := if readBufferSize ≤ n then 0 else n

/-- The received bytes are next in the read buffer. -/
theorem rest_receive (hp : Posted s) (bytes : List Byte) :
    (receive bytes s).readBuffer.rest =
      bytes ++ s.readBuffer.data.drop (s.readBuffer.readPos + bytes.length) := by
  have hlen : (s.readBuffer.data.take s.readBuffer.readPos).length = s.readBuffer.readPos := by
    have := hp.1
    have := hp.2
    rw [List.length_take]
    omega
  have hdata : (receive bytes s).readBuffer.data = s.readBuffer.data.take s.readBuffer.readPos ++
      (bytes ++ s.readBuffer.data.drop (s.readBuffer.readPos + bytes.length)) :=
    List.append_assoc ..
  rw [ReadCursor.rest, hdata, receive_readPos, List.drop_append, hlen,
    List.drop_eq_nil_of_le (Nat.le_of_eq hlen), Nat.sub_self]
  rfl

theorem handleRead_of_no_cipher (hc : s.cipher = none) :
    handleRead env ambient bytes.length (receive bytes s) =
      startRead (processPackets env ambient bytes.length (receive bytes s)) := by
  have hnone : (receive bytes s).cipher = none := hc
  rw [handleRead, decryptReadBuffer_of_none _ _ hnone]

/-- Two states that differ in the reading side only. -/
structure SameProgress (s t : Connection κ) : Prop where
  processing : processing t = processing s
  status : t.status = s.status
  player : t.player = s.player
  cipher : t.cipher = s.cipher

theorem SameProgress.receive (bytes : List Byte) (s : Connection κ) :
    SameProgress s (receive bytes s) :=
  ⟨observe_emit_none rfl _, rfl, rfl, rfl⟩

theorem SameProgress.startRead (s : Connection κ) : SameProgress s (startRead s) :=
  ⟨observe_emit_none rfl _, rfl, rfl, rfl⟩

theorem startRead_readPos (h : s.readBuffer.data.length = readBufferSize) :
    (startRead s).readBuffer.readPos = nextPosition s.readBuffer.readPos := by
  simp only [startRead, emit_readBuffer, mutableBuffer_readPos, nextPosition, h, ge_iff_le]
  split_ifs <;> rfl

theorem Posted.length_receive (hp : Posted s) (hl : bytes.length ≤ s.regionLength) :
    (Connection.receive bytes s).readBuffer.data.length = readBufferSize := by
  have := hp.1
  have := hp.2
  rw [Connection.length_receive (by omega) hl, hp.1]

end Read

end CarpetSrv.Network.Connection
