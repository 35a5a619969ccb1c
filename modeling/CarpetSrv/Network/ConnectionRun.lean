import CarpetSrv.Foundation.GuardedRun
import CarpetSrv.Network.Connection

/-!
# Runs of a connection

The events that the network thread, the tick and the console bring to one
connection, each an atomic step, and the runs they form from construction.
-/

namespace CarpetSrv.Network

open Foundation Packet Utils Connection

variable {κ : Type}

/-- What can happen to a connection from outside. -/
inductive ConnectionEvent
  | handleConnection (player : Player)
  | readCompleted (bytes : List Byte) (ambient : Ambient)
  | readFailed
  | writeCompleted
  | writeFailed (size : Nat)
  | sendKeepAlive (now : Int)
  | kickPlayer (reason : UTF16String)
  | addPacketToQueue (packet : Packet)

namespace Connection

/-- The length of the region that the outstanding read may fill. -/
def regionLength (s : Connection κ) : Nat := s.readBuffer.data.length - s.readBuffer.readPos

/-- asio puts the received bytes at the start of the posted region. -/
def receive (bytes : List Byte) (s : Connection κ) : Connection κ :=
  emit (.received s.readBuffer.readPos bytes)
    { s with
      socket := { s.socket with pendingRead := false }
      readBuffer := { s.readBuffer with
        data := s.readBuffer.data.take s.readBuffer.readPos ++ bytes ++
          s.readBuffer.data.drop (s.readBuffer.readPos + bytes.length) } }

/-- asio has sent the whole outstanding write. -/
def completeWrite (w : PendingWrite) (s : Connection κ) : Connection κ :=
  emit (.writeCompleted w.batch) { s with socket := { s.socket with pendingWrite := none } }

/-- One event. A completion needs its operation to be outstanding, and a write
on a closed socket does not succeed. -/
def step (env : Environment κ) (s : Connection κ) : ConnectionEvent → Option (Connection κ)
  | .handleConnection player =>
      if s.player = none ∧ s.socket.pendingRead = false then
        some (handleConnection player s)
      else none
  | .readCompleted bytes ambient =>
      if s.socket.pendingRead = true ∧ bytes.length ≤ s.regionLength then
        some (handleRead env ambient bytes.length (receive bytes s))
      else none
  | .readFailed =>
      if s.socket.pendingRead = true then
        some { s with socket := { s.socket with pendingRead := false } }
      else none
  | .writeCompleted =>
      match s.socket.pendingWrite with
      | some w =>
          if s.socket.isOpen = true then
            some (handleWrite false w.bytes.length (completeWrite w s))
          else none
      | none => none
  | .writeFailed size =>
      match s.socket.pendingWrite with
      | some _ =>
          some (handleWrite true size
            { s with socket := { s.socket with pendingWrite := none } })
      | none => none
  | .sendKeepAlive now => some (sendKeepAlive env now s)
  | .kickPlayer reason => some (disconnectWith env reason s)
  | .addPacketToQueue packet => some (Connection.addPacketToQueue env packet s)

/-- Every completed write is successful. -/
def Succeeds : ConnectionEvent → Prop
  | .writeFailed _ => False
  | _ => True

instance : ∀ e : ConnectionEvent, Decidable (Succeeds e)
  | .writeFailed _ => .isFalse id
  | .handleConnection _ | .readCompleted _ _ | .readFailed | .writeCompleted | .sendKeepAlive _
  | .kickPlayer _ | .addPacketToQueue _ => .isTrue trivial

/-- Every way in which an event can take place. -/
inductive Steps (env : Environment κ) (s : Connection κ) : ConnectionEvent → Connection κ → Prop
  | handleConnection {player : Player} (hp : s.player = none)
      (hr : s.socket.pendingRead = false) :
      Steps env s (.handleConnection player) (handleConnection player s)
  | readCompleted {bytes : List Byte} {ambient : Ambient} (hr : s.socket.pendingRead = true)
      (hl : bytes.length ≤ s.regionLength) :
      Steps env s (.readCompleted bytes ambient)
        (handleRead env ambient bytes.length (receive bytes s))
  | readFailed (hr : s.socket.pendingRead = true) :
      Steps env s .readFailed { s with socket := { s.socket with pendingRead := false } }
  | writeCompleted {w : PendingWrite} (hw : s.socket.pendingWrite = some w)
      (ho : s.socket.isOpen = true) :
      Steps env s .writeCompleted (handleWrite false w.bytes.length (completeWrite w s))
  | writeFailed {w : PendingWrite} {size : Nat} (hw : s.socket.pendingWrite = some w) :
      Steps env s (.writeFailed size)
        (handleWrite true size { s with socket := { s.socket with pendingWrite := none } })
  | sendKeepAlive {now : Int} : Steps env s (.sendKeepAlive now) (sendKeepAlive env now s)
  | kickPlayer {reason : UTF16String} :
      Steps env s (.kickPlayer reason) (disconnectWith env reason s)
  | addPacketToQueue {packet : Packet} :
      Steps env s (.addPacketToQueue packet) (Connection.addPacketToQueue env packet s)

theorem step_cases {env : Environment κ} {s t : Connection κ} {e : ConnectionEvent}
    (h : step env s e = some t) : Steps env s e t := by
  cases e with
  | handleConnection player =>
      simp only [step] at h
      split_ifs at h with hc
      cases h
      exact .handleConnection hc.1 hc.2
  | readCompleted bytes ambient =>
      simp only [step] at h
      split_ifs at h with hc
      cases h
      exact .readCompleted hc.1 hc.2
  | readFailed =>
      simp only [step] at h
      split_ifs at h with hc
      cases h
      exact .readFailed hc
  | writeCompleted =>
      simp only [step] at h
      split at h
      case h_1 w hw =>
        split_ifs at h with ho
        cases h
        exact .writeCompleted hw ho
      case h_2 => cases h
  | writeFailed size =>
      simp only [step] at h
      split at h
      case h_1 w hw =>
        cases h
        exact .writeFailed hw
      case h_2 => cases h
  | sendKeepAlive now =>
      cases h
      exact .sendKeepAlive
  | kickPlayer reason =>
      cases h
      exact .kickPlayer
  | addPacketToQueue packet =>
      cases h
      exact .addPacketToQueue

end Connection

/-! ## A concrete environment -/

/-- A cipher that, like CFB8, feeds each ciphertext byte into the next one. -/
def chainCipher : StreamCipher (List Byte) Byte Byte where
  encryptInit key := key.headD 0
  decryptInit key := key.headD 0
  encryptSymbol ctx p := (p ^^^ ctx, p ^^^ ctx)
  decryptSymbol ctx c := (c ^^^ ctx, c)
  decrypt_encrypt key plain := by
    generalize key.headD 0 = ctx
    induction plain generalizing ctx with
    | nil => rfl
    | cons p plain ih =>
        simp only [transduce, ih, BitVec.xor_assoc, BitVec.xor_self, BitVec.xor_zero]

/-- The environment in which RSA decryption returns its input without the zero
padding behind it, and arguments are evaluated from left to right. -/
def chainEnvironment : Environment Byte :=
  ⟨⟨[], fun encrypted => some (encrypted.takeWhile (· ≠ 0))⟩, chainCipher, leftToRight⟩

def chainAmbient : Ambient := ⟨0, some #v[1, 2, 3, 4], fun _ => 0⟩

/-- A client logs in with this protocol version and this verify token. -/
def loginEvents (version : Byte) (token : List Byte) : List ConnectionEvent :=
  [.handleConnection {},
    .readCompleted (ClientPacket.clientProtocol version [] [] 0).encode chainAmbient,
    .readCompleted (ClientPacket.sharedKey (List.replicate 16 7) token).encode chainAmbient]

end CarpetSrv.Network
