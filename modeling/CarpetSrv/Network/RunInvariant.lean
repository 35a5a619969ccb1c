import CarpetSrv.Network.ConnectionFrame
import CarpetSrv.Network.ConnectionRun
import CarpetSrv.Network.HandlerSpec

/-!
# Rules for invariants of a connection

Most invariants do not speak about the reading side of a connection. For
these, a read completion is nothing but the handlers it calls, and it is
enough to look at the states that handlers leave behind. `EachPacket` states a
condition on the packets that one read completion decodes.

## Implementation notes

A condition on a packet is checked in the state behind its decoding, before
the handler acts on it.
-/

namespace CarpetSrv.Network

open Foundation Foundation.ExceptState Foundation.BoundedLoop Packet Utils Connection

variable {κ : Type}

/-- The effects that belong to the reading side. -/
def Effect.isReading : Effect → Bool
  | received .. | decrypted .. | dispatched _ | readPosted .. => true
  | _ => false

namespace Connection

/-! ## The packets that a read completion decodes -/

/-- Decode a packet of one class, keeping the state behind it. -/
def decodeWith {α : Type} (f : α → HandledPacket) (m : BufferReader α) (s : Connection κ) :
    Option (HandledPacket × Connection κ) :=
  match m s.readBuffer with
  | .ok p b => some (f p, { s with readBuffer := b })
  | .error _ _ => none

/-- The packet that the handler of an id decodes when it is entered in state `s`. -/
def decode (env : Environment κ) (ambient : Ambient) (id : Byte) (s : Connection κ) :
    Option (HandledPacket × Connection κ) :=
  if id = 0xFE ∧ s.status = .handshake then
    decodeWith .serverPing ServerPingPacket.readData s
  else if id = 0x02 ∧ s.status = .handshake then
    decodeWith .clientProtocol ClientProtocolPacket.readData s
  else if id = 0xFC ∧ s.status = .login then
    decodeWith .sharedKey (SharedKeyPacket.readData env.keypair ambient.beyond) s
  else if id = 0xCC then decodeWith .clientInfo ClientInfoPacket.readData s
  else if id = 0x00 then some (.keepAlive, s)
  else if id = 0x0B then 
    decodeWith .playerPosition (PlayerPositionPacket.readData env.argumentOrder) s
  else none

theorem decodeWith_of_ok {α : Type} (f : α → HandledPacket) {m : BufferReader α}
    {s : Connection κ} {p : α} {b : Buffer} (h : m s.readBuffer = .ok p b) :
    decodeWith f m s = some (f p, { s with readBuffer := b }) := by
  rw [decodeWith, h]

section Decode

variable {env : Environment κ} {ambient : Ambient} {s : Connection κ} {b : Buffer}

theorem decode_serverPing {p : ServerPingPacket} (hs : s.status = .handshake)
    (hr : ServerPingPacket.readData s.readBuffer = .ok p b) :
    decode env ambient 0xFE s = some (.serverPing p, { s with readBuffer := b }) := by
  rw [decode, if_pos ⟨rfl, hs⟩, decodeWith_of_ok _ hr]

theorem decode_clientProtocol {p : ClientProtocolPacket} (hs : s.status = .handshake)
    (hr : ClientProtocolPacket.readData s.readBuffer = .ok p b) :
    decode env ambient 0x02 s = some (.clientProtocol p, { s with readBuffer := b }) := by
  have hd : decode env ambient 0x02 s =
      decodeWith .clientProtocol ClientProtocolPacket.readData s := by simp [decode, hs]
  rw [hd, decodeWith_of_ok _ hr]

theorem decode_sharedKey {p : SharedKeyPacket} (hs : s.status = .login)
    (hr : SharedKeyPacket.readData env.keypair ambient.beyond s.readBuffer = .ok p b) :
    decode env ambient 0xFC s = some (.sharedKey p, { s with readBuffer := b }) := by
  have hd : decode env ambient 0xFC s =
      decodeWith .sharedKey (SharedKeyPacket.readData env.keypair ambient.beyond) s := by
    simp [decode, hs]
  rw [hd, decodeWith_of_ok _ hr]

theorem decode_clientInfo {p : ClientInfoPacket}
    (hr : ClientInfoPacket.readData s.readBuffer = .ok p b) :
    decode env ambient 0xCC s = some (.clientInfo p, { s with readBuffer := b }) := by
  simp only [decode]
  exact decodeWith_of_ok _ hr

theorem decode_keepAlive : decode env ambient 0x00 s = some (.keepAlive, s) := by
  simp [decode]

theorem decode_playerPosition {p : PlayerPositionPacket}
    (hr : PlayerPositionPacket.readData env.argumentOrder s.readBuffer = .ok p b) :
    decode env ambient 0x0B s = some (.playerPosition p, { s with readBuffer := b }) := by
  simp only [decode]
  exact decodeWith_of_ok _ hr

end Decode

/-- The packet that the next round of the loop decodes. -/
def nextDecoded (env : Environment κ) (ambient : Ambient) (s : Connection κ) :
    Option (HandledPacket × Connection κ) :=
  s.readBuffer.data[s.readBuffer.readPos]?.bind fun id => decode env ambient id (entered id s)

/-- Every packet that one call of `process_packets` decodes satisfies `Q`. -/
def EachPacket (Q : HandledPacket → Connection κ → Prop) (env : Environment κ)
    (ambient : Ambient) (size : Nat) (s : Connection κ) : Prop :=
  Meets (fun s => s.readBuffer.readPos < size) (processRound env ambient)
    (fun s => ∀ x ∈ nextDecoded env ambient s, Q x.1 x.2) size s

/-- Every packet that an event decodes satisfies `Q`. -/
def EachRead (Q : Ambient → HandledPacket → Connection κ → Prop) (env : Environment κ)
    (s : Connection κ) : ConnectionEvent → Prop
  | .readCompleted bytes ambient =>
      EachPacket (Q ambient) env ambient bytes.length
        (decryptReadBuffer env bytes.length (receive bytes s))
  | _ => True

instance (Q : HandledPacket → Connection κ → Prop) [∀ p s, Decidable (Q p s)]
    (env : Environment κ) (ambient : Ambient) (size : Nat) (s : Connection κ) :
    Decidable (EachPacket Q env ambient size s) :=
  inferInstanceAs (Decidable (Meets _ _ _ _ _))

instance (Q : Ambient → HandledPacket → Connection κ → Prop) [∀ a p s, Decidable (Q a p s)]
    (env : Environment κ) (s : Connection κ) : ∀ e : ConnectionEvent, Decidable (EachRead Q env s e)
  | .readCompleted _ _ => inferInstanceAs (Decidable (EachPacket _ _ _ _ _))
  | .handleConnection _ | .readFailed | .writeCompleted | .writeFailed _ | .sendKeepAlive _
  | .kickPlayer _ | .addPacketToQueue _ => .isTrue trivial

/-! ## Properties that the handlers keep -/

/-- The property does not see the read buffer and the calls of handlers. -/
structure BufferClosed (I : Connection κ → Prop) : Prop where
  readBuffer : ∀ {s} (b : Buffer), I s → I { s with readBuffer := b }
  dispatched : ∀ {s} (id : Byte), I s → I (emit (.dispatched id) s)

/-- The property is kept by every handler that acts on a packet satisfying `Q`. -/
structure HandlerClosed (env : Environment κ) (Q : Ambient → HandledPacket → Connection κ → Prop)
    (I : Connection κ → Prop) : Prop extends BufferClosed I where
  pinged : ∀ {a p s}, s.status = .handshake → Q a (.serverPing p) s → I s → I (pinged env p s)
  unseeded : ∀ {a p s}, s.status = .handshake → Q a (.clientProtocol p) s → a.rand = none →
    I s → I (versionChecked env p s)
  greeted : ∀ {a p s} {token : Vector Byte 4}, s.status = .handshake →
    Q a (.clientProtocol p) s → a.rand = some token → I s → I (greeted env token p s)
  badKey : ∀ {a p s}, s.status = .login → Q a (.sharedKey p) s → p.sharedSecret.length ≠ 16 →
    I s → I (tokenChecked p s)
  loggedIn : ∀ {a p s}, s.status = .login → Q a (.sharedKey p) s → p.sharedSecret.length = 16 →
    I s → I (loggedIn env (cipherOf env p.sharedSecret) p s)
  informed : ∀ {a p s}, Q a (.clientInfo p) s → I s → I (informed p s)
  keptAlive : ∀ {a s}, Q a .keepAlive s → I s → I (keptAlive a.now s)
  positioned : ∀ {a p s}, Q a (.playerPosition p) s → I s → I (positioned p s)

/-- The property moreover does not see the rest of the reading side. -/
structure ReadClosed (env : Environment κ) (Q : Ambient → HandledPacket → Connection κ → Prop)
    (I : Connection κ → Prop) : Prop extends HandlerClosed env Q I where
  pendingRead : ∀ {s} (p : Bool), I s → I { s with socket := { s.socket with pendingRead := p } }
  decryptCtx : ∀ {s c} (k : κ), s.cipher = some c → I s →
    I { s with cipher := some { c with decryptCtx := k } }
  emit : ∀ {s e}, e.isReading = true → I s → I (emit e s)
  dispatched _ h := emit rfl h

namespace HandlerClosed

variable {env : Environment κ} {Q : Ambient → HandledPacket → Connection κ → Prop}
  {I : Connection κ → Prop} (h : HandlerClosed env Q I) {ambient : Ambient} {s : Connection κ}

include h

theorem entered (id : Byte) (hs : I s) : I (entered id s) :=
  h.dispatched id (h.readBuffer (s.readBuffer.advance 1) hs)

theorem handles {id : Byte} {r : EStateM.Result RuntimeError (Connection κ) Unit}
    (hh : Handles env ambient s id r) (hq : ∀ x ∈ decode env ambient id s, Q ambient x.1 x.2)
    (hs : I s) : I (exitState r) := by
  cases hh with
  | ignored _ => exact hs
  | malformed _ => exact h.readBuffer _ hs
  | pinged hst hr =>
      have hd := hq _ (decode_serverPing hst hr)
      exact h.pinged hst hd (h.readBuffer _ hs)
  | unseeded hst hr hrand =>
      have hd := hq _ (decode_clientProtocol hst hr)
      exact h.unseeded hst hd hrand (h.readBuffer _ hs)
  | greeted hst hr hrand =>
      have hd := hq _ (decode_clientProtocol hst hr)
      exact h.greeted hst hd hrand (h.readBuffer _ hs)
  | badKey hst hr hlen =>
      have hd := hq _ (decode_sharedKey hst hr)
      exact h.badKey hst hd hlen (h.readBuffer _ hs)
  | loggedIn hst hr hlen =>
      have hd := hq _ (decode_sharedKey hst hr)
      exact h.loggedIn hst hd hlen (h.readBuffer _ hs)
  | informed hr =>
      have hd := hq _ (decode_clientInfo hr)
      exact h.informed hd (h.readBuffer _ hs)
  | keptAlive => exact h.keptAlive (hq _ decode_keepAlive) hs
  | positioned hr =>
      have hd := hq _ (decode_playerPosition hr)
      exact h.positioned hd (h.readBuffer _ hs)

theorem processRound (hq : ∀ x ∈ nextDecoded env ambient s, Q ambient x.1 x.2) (hs : I s) :
    I (after (processRound env ambient) s) := by
  have hr := round_cases env ambient s
  rw [after]
  generalize Connection.processRound env ambient s = r at hr
  cases hr with
  | exhausted _ => exact hs
  | unknown _ _ => exact h.readBuffer _ hs
  | returned hid hh =>
      rw [nextDecoded, hid] at hq
      exact h.handles hh hq (h.entered _ hs)
  | threw hid hh =>
      rw [nextDecoded, hid] at hq
      exact h.handles hh hq (h.entered _ hs)

theorem processPackets {size : Nat} (hq : EachPacket (Q ambient) env ambient size s) (hs : I s) :
    I (processPackets env ambient size s) := by
  have hl := loop_invariant _ _ (I := I) (fun s _ hp hs => h.processRound hp hs) size s hq hs
  rw [after] at hl
  unfold Connection.processPackets
  split
  case h_1 s' hr =>
    rw [hr] at hl
    exact hl
  case h_2 e s' hr =>
    rw [hr] at hl
    exact h.readBuffer _ hl

end HandlerClosed

namespace ReadClosed

variable {env : Environment κ} {Q : Ambient → HandledPacket → Connection κ → Prop}
  {I : Connection κ → Prop} (h : ReadClosed env Q I) {ambient : Ambient} {s : Connection κ}

include h

theorem receive (bytes : List Byte) (hs : I s) : I (receive bytes s) :=
  h.emit rfl (h.readBuffer _ (h.pendingRead false hs))

theorem decryptReadBuffer (size : Nat) (hs : I s) : I (decryptReadBuffer env size s) := by
  unfold Connection.decryptReadBuffer
  cases hc : s.cipher with
  | none => exact hs
  | some c => exact h.emit rfl (h.readBuffer _ (h.decryptCtx _ hc hs))

theorem startRead (hs : I s) : I (startRead s) :=
  h.emit rfl (h.readBuffer _ (h.pendingRead true hs))

/-- A read completion keeps the property when every packet it decodes satisfies `Q`. -/
theorem readCompleted {bytes : List Byte}
    (hq : EachRead Q env s (.readCompleted bytes ambient)) (hs : I s) :
    I (handleRead env ambient bytes.length (Connection.receive bytes s)) :=
  h.startRead (h.processPackets hq (h.decryptReadBuffer _ (h.receive bytes hs)))

end ReadClosed

/-- The property is moreover kept by what the server and the completions of
writes do to a connection. -/
structure RunClosed (env : Environment κ) (Q : Ambient → HandledPacket → Connection κ → Prop)
    (I : Connection κ → Prop) : Prop extends ReadClosed env Q I where
  attach : ∀ {s} (player : Player), s.player = none → I s → I { s with player := some player }
  completeWrite : ∀ {s} (w : PendingWrite), I s → I (completeWrite w s)
  abandonWrite : ∀ {s}, I s → I { s with socket := { s.socket with pendingWrite := none } }
  handleWrite : ∀ {s} (failed : Bool) (size : Nat), I s → I (handleWrite failed size s)
  disconnect : ∀ {s}, I s → I (disconnect s)
  disconnectWith : ∀ {s} (reason : UTF16String), I s → I (disconnectWith env reason s)

/-- Every event keeps the property when the packets it decodes satisfy `Q`. -/
theorem RunClosed.step {env : Environment κ} {Q : Ambient → HandledPacket → Connection κ → Prop}
    {I : Connection κ → Prop} (h : RunClosed env Q I) {s t : Connection κ} {e : ConnectionEvent}
    (hq : EachRead Q env s e)
    (hqueue : ∀ packet, e = .addPacketToQueue packet → I (addPacketToQueue env packet s))
    (hstep : step env s e = some t) (hs : I s) : I t := by
  cases step_cases hstep with
  | handleConnection hp _ => exact h.startRead (h.attach _ hp hs)
  | readCompleted _ _ => exact h.readCompleted hq hs
  | readFailed _ => exact h.pendingRead false hs
  | writeCompleted _ _ => exact h.handleWrite _ _ (h.completeWrite _ hs)
  | writeFailed _ => exact h.handleWrite _ _ (h.abandonWrite hs)
  | sendKeepAlive =>
      exact sendKeepAlive_keeps _ (fun _ => h.disconnectWith _ hs) (h.disconnect hs) hs
  | kickPlayer => exact h.disconnectWith _ hs
  | addPacketToQueue => exact hqueue _ rfl

/-- The condition for the packets that are decoded while the socket is open. -/
abbrev WhenOpen (Q : Ambient → HandledPacket → Connection κ → Prop) :
    Ambient → HandledPacket → Connection κ → Prop :=
  fun a p s => s.socket.isOpen = true ∧ Q a p s

/-- No handler opens or closes the socket, so that a property may be asked for
while the socket is open only. -/
theorem ReadClosed.whileOpen {env : Environment κ}
    {Q : Ambient → HandledPacket → Connection κ → Prop} {I : Connection κ → Prop}
    (h : ReadClosed env (WhenOpen Q) I) :
    ReadClosed env Q fun s => s.socket.isOpen = true → I s where
  readBuffer b hs ho := h.readBuffer b (hs ho)
  pendingRead p hs ho := h.pendingRead p (hs ho)
  decryptCtx k hc hs ho := h.decryptCtx k hc (hs ho)
  emit he hs ho := h.emit he (hs ho)
  pinged {_ _ s} hst hq hs ho := by
    have hopen : s.socket.isOpen = true := by simpa [Connection.pinged] using ho
    exact h.pinged hst ⟨hopen, hq⟩ (hs hopen)
  unseeded {_ _ s} hst hq hrand hs ho := by
    have hopen : s.socket.isOpen = true := by simpa using ho
    exact h.unseeded hst ⟨hopen, hq⟩ hrand (hs hopen)
  greeted {_ _ s _} hst hq hrand hs ho := by
    have hopen : s.socket.isOpen = true := by simpa [Connection.greeted] using ho
    exact h.greeted hst ⟨hopen, hq⟩ hrand (hs hopen)
  badKey {_ _ s} hst hq hlen hs ho := by
    have hopen : s.socket.isOpen = true := by simpa using ho
    exact h.badKey hst ⟨hopen, hq⟩ hlen (hs hopen)
  loggedIn {_ _ s} hst hq hlen hs ho := by
    have hopen : s.socket.isOpen = true := by simpa [Connection.loggedIn] using ho
    exact h.loggedIn hst ⟨hopen, hq⟩ hlen (hs hopen)
  informed {_ _ s} hq hs ho := by
    have hopen : s.socket.isOpen = true := by simpa [Connection.informed] using ho
    exact h.informed ⟨hopen, hq⟩ (hs hopen)
  keptAlive hq hs ho := h.keptAlive ⟨ho, hq⟩ (hs ho)
  positioned {_ _ s} hq hs ho := by
    have hopen : s.socket.isOpen = true := by simpa [Connection.positioned] using ho
    exact h.positioned ⟨hopen, hq⟩ (hs hopen)

/-- The condition that allows every packet. -/
abbrev AnyPacket : Ambient → HandledPacket → Connection κ → Prop := fun _ _ _ => True

theorem eachPacket_anyPacket (env : Environment κ) (ambient : Ambient) (size : Nat)
    (s : Connection κ) : EachPacket (AnyPacket ambient) env ambient size s :=
  meets_of_forall _ _ (fun _ _ _ => trivial) _ _

theorem eachRead_anyPacket (env : Environment κ) (s : Connection κ) (e : ConnectionEvent) :
    EachRead AnyPacket env s e := by
  cases e
  case readCompleted => exact eachPacket_anyPacket ..
  all_goals trivial

end Connection

end CarpetSrv.Network
