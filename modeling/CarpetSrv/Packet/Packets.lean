import CarpetSrv.Foundation.OperandOrder
import CarpetSrv.Packet.BufferReaders

/-!
# The packet classes

One structure for each packet class with the fields that its methods use, its
`readData` as a throwing reader and its `writeData` as a function of the write
buffer. `readData` starts behind the packet id. `writeData` writes the id.

## Implementation notes

`getSize`, the members `packetID` and `size` of the base class, and the
inherited `readData` and `writeData` with empty bodies on the side that a
packet is not sent to, take part in nothing and are left out, except that
`writeData` of the client packets is kept because any packet can be queued.
The position and the spawn-point packet read the three arguments of one call.
The order of these reads is the compiler's choice and a parameter of `readData`.
-/

namespace CarpetSrv

/-- `crypto::KeyPair` as the packets use it: its DER public key, which is
fixed once the pair is generated, and RSA decryption, which may fail. -/
structure KeyPair where
  getPublicKeychars : List Byte
  decryptWithPrivateKey : List Byte → Option (List Byte)

/-- `world::Location` with the patterns of its coordinates. -/
structure Location where
  x : Double := 0
  y : Double := 0
  z : Double := 0
  deriving DecidableEq

/-- Every coordinate is replaced. -/
def Location.set (_ : Location) (x y z : Double) : Location := ⟨x, y, z⟩

namespace Packet

open Foundation Utils Buffer

/-! ## Handshake -/

structure ServerPingPacket where
  ping : Byte := 0xFF
  deriving DecidableEq

namespace ServerPingPacket

def readData : BufferReader ServerPingPacket := do
  if (← get).data.length > 0 then
    let ping ← readByte
    return { ping := ping }
  else
    return {}

def writeData (_ : ServerPingPacket) (buffer : Buffer) : Buffer := buffer

end ServerPingPacket

structure ClientProtocolPacket where
  protocolVersion : CInt := -1
  username : CppString := []
  serverHost : CppString := []
  serverPort : CInt := -1
  deriving DecidableEq

namespace ClientProtocolPacket

def readData : BufferReader ClientProtocolPacket := do
  let protocolVersion ← readByte
  let username ← readString 16
  let serverHost ← readString 255
  let serverPort ← readInt
  return ⟨protocolVersion.setWidth 32, username, serverHost, serverPort⟩

def writeData (_ : ClientProtocolPacket) (buffer : Buffer) : Buffer := buffer

end ClientProtocolPacket

structure KickPacket where
  reason : UTF16String
  deriving DecidableEq

def KickPacket.writeData (p : KickPacket) (buffer : Buffer) : Buffer :=
  (buffer.writeByte 0xFF).writeUTF16String p.reason

/-! ## Login -/

structure ServerAuthDataPacket where
  verifyToken : List Byte
  deriving DecidableEq

def ServerAuthDataPacket.writeData (keypair : KeyPair) (p : ServerAuthDataPacket)
    (buffer : Buffer) : Buffer :=
  (((buffer.writeByte 0xFD).writeString (literal ['-'])).writeBytes
    keypair.getPublicKeychars).writeBytes p.verifyToken

structure SharedKeyPacket where
  sharedSecret : List Byte := []
  verifyToken : List Byte := []
  deriving DecidableEq

namespace SharedKeyPacket

/-- Decryption throws when it fails. -/
def decryptWithPrivateKey (keypair : KeyPair) (encrypted : List Byte) :
    BufferReader (List Byte) :=
  match keypair.decryptWithPrivateKey encrypted with
  | some decrypted => pure decrypted
  | none => throw .decryptFailed

def readData (keypair : KeyPair) (beyond : Nat → Byte) : BufferReader SharedKeyPacket := do
  let encryptedSharedSecret ← readBytes beyond
  let encryptedVerifyToken ← readBytes beyond
  let sharedSecret ← decryptWithPrivateKey keypair encryptedSharedSecret
  let verifyToken ← decryptWithPrivateKey keypair encryptedVerifyToken
  return ⟨sharedSecret, verifyToken⟩

def writeData (_ : SharedKeyPacket) (buffer : Buffer) : Buffer :=
  ((buffer.writeByte 0xFC).writeBytes []).writeBytes []

end SharedKeyPacket

structure LoginPacket where
  deriving DecidableEq

def LoginPacket.writeData (_ : LoginPacket) (buffer : Buffer) : Buffer :=
  (((((((buffer.writeByte 0x01).writeInt 1).writeString (literal ['f', 'l', 'a', 't'])).writeByte
    1).writeByte 0).writeByte 1).writeByte 0xFF).writeByte 20

/-! ## Play -/

structure KeepAlivePacket where
  milliseconds : CInt := 0
  deriving DecidableEq

namespace KeepAlivePacket

def readData : BufferReader KeepAlivePacket := do
  let milliseconds ← readInt
  return ⟨milliseconds⟩

def writeData (p : KeepAlivePacket) (buffer : Buffer) : Buffer :=
  (buffer.writeByte 0x0).writeInt p.milliseconds

end KeepAlivePacket

structure ClientInfoPacket where
  language : CppString := []
  renderDistance : CInt := 0
  chatVisible : CInt := 0
  chatColours : Bool := false
  gameDifficulty : CInt := 0
  showCape : Bool := false
  deriving DecidableEq

namespace ClientInfoPacket

/-- The second int is narrowed to a `char` before its bits are tested. -/
def readData : BufferReader ClientInfoPacket := do
  let language ← readString 7
  let renderDistance ← readInt
  let number ← readInt
  let var : Byte := number.setWidth 8
  let gameDifficulty ← readByte
  let showCape ← readBool
  return ⟨language, renderDistance, if var &&& 7 ≠ 0 then 1 else 0, var &&& 8 == 8,
    gameDifficulty.setWidth 32, showCape⟩

def writeData (_ : ClientInfoPacket) (buffer : Buffer) : Buffer := buffer

end ClientInfoPacket

/-- The spawn point. The source keeps the three ints in a `Location` of
doubles, which represents every int exactly. -/
structure SpawnPointPacket where
  x : CInt := 0
  y : CInt := 0
  z : CInt := 0
  deriving DecidableEq

namespace SpawnPointPacket

def writeData (p : SpawnPointPacket) (buffer : Buffer) : Buffer :=
  (((buffer.writeByte 0x06).writeInt p.x).writeInt p.y).writeInt p.z

/-- The arguments of `set` are read in this order. -/
def readData (order : Equiv.Perm (Fin 3)) : BufferReader SpawnPointPacket := do
  let argument ← evaluate order fun _ => readInt
  return callThree SpawnPointPacket.mk argument

end SpawnPointPacket

/-- The angles are floats that every constructor sets to zero; they are kept
as the doubles that are written. -/
structure PlayerPositionPacket where
  location : Location := {}
  yaw : Double := 0
  pitch : Double := 0
  stance : Double := 0
  onGround : Bool := false
  deriving DecidableEq

namespace PlayerPositionPacket

def writeData (p : PlayerPositionPacket) (buffer : Buffer) : Buffer :=
  (((((((buffer.writeByte 0x0D).writeDouble p.location.x).writeDouble p.location.y).writeDouble
    p.stance).writeDouble p.location.z).writeDouble p.yaw).writeDouble p.pitch).writeBool p.onGround

/-- The arguments of `set` are read in this order. -/
def readData (order : Equiv.Perm (Fin 3)) : BufferReader PlayerPositionPacket := do
  let argument ← evaluate order fun _ => readDouble
  let stance ← readDouble
  let onGround ← readBool
  return { location := callThree ({} : Location).set argument,
           stance := stance, onGround := onGround }

end PlayerPositionPacket

/-! ## Writers only append -/

/-- The writer appends the same bytes to every buffer and changes nothing else. -/
def Appends (f : Buffer → Buffer) : Prop := ∃ bytes, ∀ b, f b = b.addDatas bytes

theorem addDatas_addDatas (b : Buffer) (xs ys : List Byte) :
    (b.addDatas xs).addDatas ys = b.addDatas (xs ++ ys) := by
  simp [Buffer.addDatas]

theorem Appends.id : Appends fun b => b := ⟨[], fun b => by simp [Buffer.addDatas]⟩

theorem Appends.comp {f g : Buffer → Buffer} (hg : Appends g) (hf : Appends f) :
    Appends fun b => g (f b) := by
  obtain ⟨xs, hx⟩ := hf
  obtain ⟨ys, hy⟩ := hg
  refine ⟨xs ++ ys, ?_⟩
  intro b
  calc
    g (f b) = (b.addDatas xs).addDatas ys := by rw [hx, hy]
    _ = b.addDatas (xs ++ ys) := addDatas_addDatas b xs ys

theorem Appends.foldl {α : Type} {f : α → Buffer → Buffer} (hf : ∀ a, Appends (f a))
    (as : List α) : Appends fun b => as.foldl (fun b a => f a b) b := by
  induction as with
  | nil => exact .id
  | cons a as ih => exact ih.comp (hf a)

theorem writeByte_appends (byte : Byte) : Appends (writeByte byte) := ⟨[byte], fun _ => rfl⟩

theorem writeShort_appends (n : Short) : Appends (writeShort n) :=
  (writeByte_appends _).comp (writeByte_appends _)

theorem writeInt_appends (n : CInt) : Appends (writeInt n) :=
  (writeByte_appends _).comp ((writeByte_appends _).comp
    ((writeByte_appends _).comp (writeByte_appends _)))

theorem writeDouble_appends (x : Double) : Appends (writeDouble x) :=
  .foldl (fun i => writeByte_appends ((x >>> (i * 8) &&& 0xFF).setWidth 8)) _

theorem writeBool_appends (val : Bool) : Appends (writeBool val) := writeByte_appends _

theorem writeChar_appends (c : Byte) : Appends (writeChar c) :=
  (writeByte_appends _).comp (writeByte_appends _)

theorem writeUTF16Char_appends (ch : BitVec 16) : Appends (writeUTF16Char ch) :=
  (writeByte_appends _).comp (writeByte_appends _)

/-- A length field followed by the elements, as the three sequence writers do it. -/
theorem Appends.sequence {α : Type} {f : α → Buffer → Buffer} (hf : ∀ a, Appends (f a))
    (as : List α) (n : Short) :
    Appends fun b => as.foldl (fun b a => f a b) (b.writeShort n) :=
  (Appends.foldl hf as).comp (writeShort_appends n)

theorem writeString_appends (str : CppString) : Appends (writeString str) :=
  .sequence writeChar_appends str _

theorem writeUTF16String_appends (str : UTF16String) : Appends (writeUTF16String str) :=
  .sequence writeUTF16Char_appends str _

theorem writeBytes_appends (bytes : List Byte) : Appends (writeBytes bytes) :=
  .sequence writeByte_appends bytes _

end Packet

/-! ## Packets of any class -/

open Packet

/-- What a `Packet *` of the outgoing queue points to. -/
inductive Packet
  | serverPing (p : ServerPingPacket)
  | clientProtocol (p : ClientProtocolPacket)
  | kick (p : KickPacket)
  | serverAuthData (p : ServerAuthDataPacket)
  | sharedKey (p : SharedKeyPacket)
  | login (p : LoginPacket)
  | keepAlive (p : KeepAlivePacket)
  | clientInfo (p : ClientInfoPacket)
  | spawnPoint (p : SpawnPointPacket)
  | playerPosition (p : PlayerPositionPacket)
  deriving DecidableEq

namespace Packet

/-- The virtual call `packet->writeData(buffer)`. -/
def writeData (keypair : KeyPair) : Packet → Buffer → Buffer
  | serverPing p => p.writeData
  | clientProtocol p => p.writeData
  | kick p => p.writeData
  | serverAuthData p => p.writeData keypair
  | sharedKey p => p.writeData
  | login p => p.writeData
  | keepAlive p => p.writeData
  | clientInfo p => p.writeData
  | spawnPoint p => p.writeData
  | playerPosition p => p.writeData

/-- The bytes that `writeData` produces in an empty buffer. -/
def output (keypair : KeyPair) (p : Packet) : List Byte := (p.writeData keypair {}).data

/-- The outputs of a sequence of packets, one behind the other. -/
def outputs (keypair : KeyPair) (ps : List Packet) : List Byte := ps.flatMap (output keypair)

end Packet

theorem Packet.writeData_appends (keypair : KeyPair) (p : Packet) :
    Appends (p.writeData keypair) := by
  cases p with
  | serverPing p => exact .id
  | clientProtocol p => exact .id
  | clientInfo p => exact .id
  | kick p => exact (writeUTF16String_appends _).comp (writeByte_appends _)
  | serverAuthData p =>
      exact (writeBytes_appends _).comp ((writeBytes_appends _).comp
        ((writeString_appends _).comp (writeByte_appends _)))
  | sharedKey p =>
      exact (writeBytes_appends _).comp ((writeBytes_appends _).comp (writeByte_appends _))
  | login p =>
      exact (writeByte_appends _).comp ((writeByte_appends _).comp ((writeByte_appends _).comp
        ((writeByte_appends _).comp ((writeByte_appends _).comp ((writeString_appends _).comp
          ((writeInt_appends _).comp (writeByte_appends _)))))))
  | keepAlive p => exact (writeInt_appends _).comp (writeByte_appends _)
  | spawnPoint p =>
      exact (writeInt_appends _).comp ((writeInt_appends _).comp
        ((writeInt_appends _).comp (writeByte_appends _)))
  | playerPosition p =>
      exact (writeBool_appends _).comp ((writeDouble_appends _).comp ((writeDouble_appends _).comp
        ((writeDouble_appends _).comp ((writeDouble_appends _).comp ((writeDouble_appends _).comp
          ((writeDouble_appends _).comp (writeByte_appends _)))))))

/-- A packet writes the same bytes behind whatever the buffer already holds. -/
theorem Packet.writeData_eq (keypair : KeyPair) (p : Packet) (b : Buffer) :
    p.writeData keypair b = b.addDatas (p.output keypair) := by
  obtain ⟨bytes, h⟩ := Packet.writeData_appends keypair p
  have ho : p.output keypair = bytes := by
    rw [Packet.output, h]
    rfl
  rw [h, ho]

/-- Draining a queue into a buffer appends the outputs in queue order. -/
theorem Packet.foldl_writeData (keypair : KeyPair) (ps : List Packet) (b : Buffer) :
    ps.foldl (fun b p => p.writeData keypair b) b = b.addDatas (Packet.outputs keypair ps) := by
  induction ps generalizing b with
  | nil => simp [Packet.outputs, Buffer.addDatas]
  | cons p ps ih =>
      rw [List.foldl_cons, ih, Packet.writeData_eq, addDatas_addDatas]
      rfl

end CarpetSrv
