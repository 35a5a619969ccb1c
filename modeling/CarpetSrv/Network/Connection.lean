import CarpetSrv.Foundation.BoundedLoop
import CarpetSrv.Foundation.StreamTransducer
import CarpetSrv.Packet.WireFormat
import Mathlib.Tactic.Simps.Basic

/-!
# The connection

The state of one `Connection` and its methods. Code that can throw is a
computation on the connection that keeps its state when it throws, and the
rest is a plain function.

## Implementation notes

`trace` is history: it lists what the connection did, and no method reads it.
The socket is what asio knows of it: whether it is open, whether a read is
outstanding and which write is. A connection owns one player object and holds
a pointer to it; `player` is that object, and whether the server has already
deleted it is a matter of the server. The lock members guard sections that are
atomic here. `counter` and `stateMutex` are used by no statement and left out,
and so is the console output.

The missing parts of the world are parameters. `Environment` holds the key
pair, the EVP cipher and what the language leaves to the compiler, and
`Ambient` what one step finds around it.
-/

namespace CarpetSrv

/-- `entity::Player` with the location it inherits from `Entity`. -/
structure Player where
  name : CppString := []
  language : CppString := []
  renderDistance : CInt := 20
  showCape : Bool := true
  location : Location := {}
  deriving DecidableEq

namespace Player

def setUsername (username : CppString) (p : Player) : Player := { p with name := username }

def setLanguage (language : CppString) (p : Player) : Player := { p with language := language }

def setShowCape (show_cape : Bool) (p : Player) : Player := { p with showCape := show_cape }

def setRenderDistance (render_distance : CInt) (p : Player) : Player :=
  { p with renderDistance := render_distance }

def setPosition (x y z : Double) (p : Player) : Player :=
  { p with location := p.location.set x y z }

end Player

namespace Network

open Foundation Foundation.BoundedLoop Packet Utils

/-- The parts of the process that a connection uses and does not own, and the
order in which the compiler evaluates the three arguments of a call. -/
structure Environment (κ : Type) where
  keypair : KeyPair
  evp : StreamCipher (List Byte) Byte κ
  argumentOrder : Equiv.Perm (Fin 3)

/-- What one step finds around it: the clock, the answer of `RAND_bytes`, and
the memory behind the storage of the read buffer. -/
structure Ambient where
  now : Int
  rand : Option (Vector Byte 4)
  beyond : Nat → Byte

/-- `crypto::AESCipher`: the two EVP contexts it owns. -/
structure AESCipher (κ : Type) where
  encryptCtx : κ
  decryptCtx : κ
  deriving DecidableEq

variable {κ : Type}

/-- The constructor of the cipher. The key also serves as the initial vector. -/
def AESCipher.create (evp : StreamCipher (List Byte) Byte κ) (inputKey : List Byte) :
    Except RuntimeError (AESCipher κ) :=
  if inputKey.length ≠ 16 then
    .error .keySize
  else
    .ok ⟨evp.encryptInit inputKey, evp.decryptInit inputKey⟩

inductive Status
  | handshake
  | login
  | play
  | ping
  deriving DecidableEq, Repr

/-- A client packet as its handler has decoded it. -/
inductive HandledPacket
  | serverPing (p : ServerPingPacket)
  | clientProtocol (p : ClientProtocolPacket)
  | sharedKey (p : SharedKeyPacket)
  | clientInfo (p : ClientInfoPacket)
  | keepAlive
  | playerPosition (p : PlayerPositionPacket)
  deriving DecidableEq

/-- What a connection does, in the order in which it happens. -/
inductive Effect
  /-- A read completed with bytes that asio put at this offset. -/
  | received (offset : Nat) (bytes : List Byte)
  /-- The decrypt context was fed `input` when `size` new bytes stood at `offset`. -/
  | decrypted (offset size : Nat) (input output : List Byte)
  /-- The handler of this packet id was called. -/
  | dispatched (packetId : Byte)
  /-- A handler acted on this packet and returned. -/
  | handled (p : HandledPacket)
  /-- The player pointer was dereferenced. -/
  | playerUsed
  | cipherInstalled (key : List Byte)
  /-- One of the two `disconnect` overloads was called. -/
  | disconnected (reason : Option UTF16String)
  | enqueued (p : Packet)
  | readPosted (offset length : Nat)
  /-- `async_write` was given the encoding of this batch. -/
  | writePosted (batch : List Packet) (bytes : List Byte)
  | writeCompleted (batch : List Packet)
  | closed
  deriving DecidableEq

/-- A write that asio has not completed yet. -/
structure PendingWrite where
  batch : List Packet
  bytes : List Byte
  deriving DecidableEq

/-- The socket as asio sees it. -/
structure Socket where
  isOpen : Bool := true
  pendingRead : Bool := false
  pendingWrite : Option PendingWrite := none
  deriving DecidableEq

structure Connection (κ : Type) where
  socket : Socket := {}
  running : Bool := true
  mustDisconnect : Bool := false
  writeBuffer : Buffer := {}
  readBuffer : Buffer := {}
  cipher : Option (AESCipher κ) := none
  queue : List Packet := []
  isWriting : Bool := false
  lastActivity : Int
  player : Option Player := none
  verifyToken : List Byte := []
  status : Status := .handshake
  trace : List Effect := []
  deriving DecidableEq

/-- A method that may throw. -/
abbrev ConnM (κ α : Type) := EStateM RuntimeError (Connection κ) α

/-- The text of the answer to a server ping. -/
def serializeServerInfo (version motd : CppString) (currentPlayers maxPlayers : Int) :
    UTF16String :=
  [literal ['1'], literal ['5', '1'], version, motd, toString currentPlayers,
    toString maxPlayers].foldl
      (fun joined i => (joined.append (.ofString i)).appendUnit 0x0000)
      (UTF16String.appendUnit [] 0x00A7)

namespace Connection

def create (now : Int) : Connection κ := { lastActivity := now }

/-- Record one effect. -/
@[simps]
def emit (e : Effect) (s : Connection κ) : Connection κ := { s with trace := s.trace ++ [e] }

/-! ## Writing -/

/-- The bytes of a drained batch, encrypted when a cipher is installed. -/
def encryptWriteBuffer (env : Environment κ) (s : Connection κ) : Connection κ :=
  match s.cipher with
  | none => s
  | some cipher =>
      let encrypted := env.evp.encrypt cipher.encryptCtx s.writeBuffer.data
      { s with
        writeBuffer := { s.writeBuffer with data := encrypted.1 }
        cipher := some { cipher with encryptCtx := encrypted.2 } }

/-- `start_write` drains the whole queue into one write. -/
def startWrite (env : Environment κ) (s : Connection κ) : Connection κ :=
  if s.isWriting then
    s
  else
    let drained : Connection κ :=
      { s with
        isWriting := true
        queue := []
        writeBuffer := s.queue.foldl (fun b p => p.writeData env.keypair b) s.writeBuffer }
    let ready := encryptWriteBuffer env drained
    emit (.writePosted s.queue ready.writeBuffer.constBuffer)
      { ready with
        socket := { ready.socket with
          pendingWrite := some ⟨s.queue, ready.writeBuffer.constBuffer⟩ } }

def addPacketToQueue (env : Environment κ) (packet : Packet) (s : Connection κ) : Connection κ :=
  let queued := emit (.enqueued packet) { s with queue := s.queue ++ [packet] }
  if queued.isWriting then queued else startWrite env queued

/-! ## Disconnecting -/

/-- Use the player object if the pointer is not null. -/
def usePlayer (f : Player → Player) (s : Connection κ) : Connection κ :=
  match s.player with
  | none => s
  | some player => emit .playerUsed { s with player := some (f player) }

/-- `disconnect(reason)`. The console line asks the player for its name. -/
def disconnectWith (env : Environment κ) (reason : UTF16String) (s : Connection κ) :
    Connection κ :=
  let kicked := addPacketToQueue env (.kick ⟨reason⟩) (emit (.disconnected (some reason)) s)
  { usePlayer id { kicked with running := false } with mustDisconnect := true }

/-- `disconnect()`. -/
@[simps!]
def disconnect (s : Connection κ) : Connection κ :=
  emit (.disconnected none) { s with running := false, mustDisconnect := true }

def handleWrite (failed : Bool) (size : Nat) (s : Connection κ) : Connection κ :=
  let idle := { s with isWriting := false }
  let done :=
    if failed then idle
    else if size ≠ 0 ∧ idle.status = .ping then disconnect idle
    else { idle with writeBuffer := idle.writeBuffer.clearBuffer }
  if done.mustDisconnect then
    emit .closed { done with running := false, socket := { done.socket with isOpen := false } }
  else done

def sendKeepAlive (env : Environment κ) (now : Int) (s : Connection κ) : Connection κ :=
  if now - s.lastActivity > 20 then
    if s.status = .play then
      disconnectWith env (.ofString (literal ['T', 'i', 'm', 'e', 'd', ' ', 'o', 'u', 't'])) s
    else disconnect s
  else s

/-! ## Handlers -/

/-- Run a reader on the read buffer. -/
def onReadBuffer {α : Type} (m : BufferReader α) : ConnM κ α := fun s =>
  match m s.readBuffer with
  | .ok a b => .ok a { s with readBuffer := b }
  | .error e b => .error e { s with readBuffer := b }

def handleServerPingPacket (env : Environment κ) : ConnM κ Unit := do
  if (← get).status = .handshake then
    let serverPing ← onReadBuffer ServerPingPacket.readData
    modify (addPacketToQueue env (.kick ⟨serializeServerInfo (literal ['1', '.', '4', '.', '7'])
      (literal ("A server running Carpet SRV".toList)) 0 20⟩))
    modify fun s => emit (.handled (.serverPing serverPing)) { s with status := .ping }

def handleHandshake (env : Environment κ) (ambient : Ambient) : ConnM κ Unit := do
  if (← get).status = .handshake then
    let clientProtocolPacket ← onReadBuffer ClientProtocolPacket.readData
    modify fun s =>
      if clientProtocolPacket.protocolVersion ≠ 51 then
        disconnectWith env (.ofString (literal ['p', 'i', 'n', 'g', 'e', 'd', '.'])) s
      else s
    modify (usePlayer (Player.setUsername clientProtocolPacket.username))
    match ambient.rand with
    | none => throw .randFailed
    | some token =>
        modify fun s => { s with verifyToken := token.toList }
        modify (addPacketToQueue env (.serverAuthData ⟨token.toList⟩))
        modify fun s => emit (.handled (.clientProtocol clientProtocolPacket))
          { s with status := .login }

def handleSharedKeyPacket (env : Environment κ) (ambient : Ambient) : ConnM κ Unit := do
  if (← get).status = .login then
    let sharedKeyPacket ← onReadBuffer (SharedKeyPacket.readData env.keypair ambient.beyond)
    modify fun s => if s.verifyToken ≠ sharedKeyPacket.verifyToken then disconnect s else s
    match AESCipher.create env.evp sharedKeyPacket.sharedSecret with
    | .error e => throw e
    | .ok cipher =>
        modify fun s => emit (.cipherInstalled sharedKeyPacket.sharedSecret)
          { s with cipher := some cipher }
        modify (addPacketToQueue env (.login {}))
        modify (addPacketToQueue env (.spawnPoint ⟨0, 0, 0⟩))
        modify (addPacketToQueue env (.playerPosition {}))
        modify fun s => emit (.handled (.sharedKey sharedKeyPacket)) { s with status := .play }

def handleClientInfo : ConnM κ Unit := do
  let infoPacket ← onReadBuffer ClientInfoPacket.readData
  modify (usePlayer fun player => ((player.setLanguage infoPacket.language).setShowCape
    infoPacket.showCape).setRenderDistance infoPacket.renderDistance)
  modify (emit (.handled (.clientInfo infoPacket)))

/-- The body of the packet is not read. -/
def handleKeepAlive (ambient : Ambient) : ConnM κ Unit :=
  modify fun s => emit (.handled .keepAlive) { s with lastActivity := ambient.now }

def handlePositionPacket (env : Environment κ) : ConnM κ Unit := do
  let positionPacket ← onReadBuffer (PlayerPositionPacket.readData env.argumentOrder)
  modify (usePlayer (Player.setPosition positionPacket.location.x positionPacket.location.y
    positionPacket.location.z))
  modify (emit (.handled (.playerPosition positionPacket)))

/-- `PACKETS_HANDLERS`. -/
def packetsHandlers (env : Environment κ) (ambient : Ambient) : List (Byte × ConnM κ Unit) :=
  [(0xFE, handleServerPingPacket env),
    (0x02, handleHandshake env ambient),
    (0xFC, handleSharedKeyPacket env ambient),
    (0xCC, handleClientInfo),
    (0x00, handleKeepAlive ambient),
    (0x0B, handlePositionPacket env)]

/-! ## Reading -/

/-- One round of the loop of `process_packets`. It answers whether to go on. -/
def processRound (env : Environment κ) (ambient : Ambient) : ConnM κ Bool := do
  if (← get).readBuffer.readPos ≥ (← get).readBuffer.data.length then
    return false
  else
    let packetId ← onReadBuffer Buffer.readByte
    match (packetsHandlers env ambient).lookup packetId with
    | some handler =>
        modify (emit (.dispatched packetId))
        handler
        return true
    | none => return false

/-- `process_packets`. The loop starts at most `size` rounds, since each reads its id byte. -/
def processPackets (env : Environment κ) (ambient : Ambient) (size : Nat) (s : Connection κ) :
    Connection κ :=
  match loop (fun s => s.readBuffer.readPos < size) (processRound env ambient) size s with
  | .ok _ s' => s'
  | .error _ s' => { s' with readBuffer := s'.readBuffer.clearBuffer }

def startRead (s : Connection κ) : Connection κ :=
  let cleared :=
    if s.readBuffer.readPos ≥ s.readBuffer.data.length then s.readBuffer.clearBuffer
    else s.readBuffer
  let region := cleared.mutableBuffer
  emit (.readPosted region.readPos (region.data.length - region.readPos))
    { s with readBuffer := region, socket := { s.socket with pendingRead := true } }

/-- Decrypt the read buffer in place when a cipher is installed. -/
def decryptReadBuffer (env : Environment κ) (size : Nat) (s : Connection κ) : Connection κ :=
  match s.cipher with
  | none => s
  | some cipher =>
      let decrypted := env.evp.decrypt cipher.decryptCtx s.readBuffer.data
      emit (.decrypted s.readBuffer.readPos size s.readBuffer.data decrypted.1)
        { s with
          readBuffer := { s.readBuffer with data := decrypted.1 }
          cipher := some { cipher with decryptCtx := decrypted.2 } }

/-- `handle_read` of a completion without an error. With one, it does nothing. -/
def handleRead (env : Environment κ) (ambient : Ambient) (size : Nat) (s : Connection κ) :
    Connection κ :=
  startRead (processPackets env ambient size (decryptReadBuffer env size s))

/-- `handleConnection` attaches the player and performs the login sequence. -/
def handleConnection (player : Player) (s : Connection κ) : Connection κ :=
  startRead { s with player := some player }

end Connection

end Network

end CarpetSrv
