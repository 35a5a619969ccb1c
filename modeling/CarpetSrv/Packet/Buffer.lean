import CarpetSrv.Foundation.BigEndian
import CarpetSrv.Foundation.ReadCursor
import CarpetSrv.Utils.UTF16String

/-!
# The packet buffer

`Buffer` is a byte vector with a read position. Readers may throw, and a throw
leaves the position where the reader had moved it. Writers append.

## Implementation notes

`data` and `readPos` are the members of the source class. `decryptedData` is
scratch space that every use clears first, so it is left out. The two operands
of `readShort` and the four of `readInt` are read from left to right.

`readBytes` copies with `memcpy`. Where the copied range passes the end of the
vector, the copy finds what memory holds there: the parameter `beyond`.
-/

namespace CarpetSrv.Packet

open Foundation Utils

abbrev Buffer := ReadCursor Byte

abbrev BufferReader := Reader RuntimeError Byte

namespace Buffer

/-- `mutableBuffer` and `start_read` work with this storage size. -/
def readBufferSize : Nat := 4096

def size (b : Buffer) : Nat := b.data.length

/-- `addDatas` appends a byte array to the vector. -/
def addDatas (bytes : List Byte) (b : Buffer) : Buffer := { b with data := b.data ++ bytes }

def clearBuffer (b : Buffer) : Buffer := { b with data := [], readPos := 0 }

/-- `resize` cuts the vector or fills it up with zeros. -/
def resize (n : Nat) (b : Buffer) : Buffer :=
  { b with data := b.data.take n ++ List.replicate (n - b.data.length) 0 }

/-- The effect of `mutableBuffer` on the vector. It only ever grows. -/
def mutableBuffer (b : Buffer) : Buffer :=
  if b.size < readBufferSize then b.resize readBufferSize else b

/-- The bytes of the region that `constBuffer` describes. -/
def constBuffer (b : Buffer) : List Byte := b.rest

/-! ## Readers -/

/-- Read a byte from the buffer. -/
def readByte : BufferReader Byte := do
  if (← get).readPos ≥ (← get).data.length then
    throw .bufferUnderflow
  else
    next

/-- Read a short from the buffer. -/
def readShort : BufferReader Short := do
  if (← get).readPos + 2 > (← get).data.length then
    throw .bufferUnderflow
  else
    let high ← next
    let low ← next
    return (high.setWidth 16 <<< 8) ||| low.setWidth 16

/-- Read a char from the buffer: the low byte of a short. -/
def readChar : BufferReader Byte := do
  let number ← readShort
  return number.setWidth 8

/-- The loop of `readString`. -/
def readChars : Nat → CppString → BufferReader CppString
  | 0, result => pure result
  | n + 1, result => do
      let c ← readChar
      readChars n (result ++ [c])

/-- Read a string from the buffer. A length above `maxSize` or below zero is
reported on the console and gives the empty string. -/
def readString (maxSize : Int) : BufferReader CppString := do
  let stringLen ← readShort
  if stringLen.toInt > maxSize then
    return []
  else if stringLen.toInt < 0 then
    return []
  else
    readChars stringLen.toInt.toNat []

/-- The loop of `readDouble`. -/
def readRaw : Nat → Double → BufferReader Double
  | 0, raw => pure raw
  | n + 1, raw => do
      let byte ← next
      readRaw n ((raw <<< 8) ||| byte.setWidth 64)

/-- Read the pattern of a double from the buffer. -/
def readDouble : BufferReader Double := do
  if (← get).readPos + 8 > (← get).data.length then
    throw .bufferUnderflow
  else
    readRaw 8 0

/-- What a copy starting at `data.data()` finds at offset `i`. -/
def byteAt (beyond : Nat → Byte) (b : Buffer) (i : Nat) : Byte :=
  b.data.getD i (beyond i)

/-- Read a byte array from the buffer. The length is compared with the size of
the whole vector. -/
def readBytes (beyond : Nat → Byte) : BufferReader (List Byte) := do
  let len ← readShort
  if len.toInt < 0 then
    throw .negativeLength
  else if len.toInt > (← get).data.length then
    throw .notEnoughChars
  else
    let b ← get
    let n := len.toInt.toNat
    modify fun b => b.advance n
    return (List.range' b.readPos n).map (byteAt beyond b)

def readInt : BufferReader CInt := do
  let b3 ← readByte
  let b2 ← readByte
  let b1 ← readByte
  let b0 ← readByte
  return (b3.setWidth 32 <<< 24) ||| (b2.setWidth 32 <<< 16) ||| (b1.setWidth 32 <<< 8) |||
    b0.setWidth 32

def readBool : BufferReader Bool := do
  let byte ← readByte
  return byte != 0

/-! ## Writers -/

def writeByte (byte : Byte) (b : Buffer) : Buffer := { b with data := b.data ++ [byte] }

def writeShort (number : Short) (b : Buffer) : Buffer :=
  (b.writeByte ((number.sshiftRight 8 &&& 0xFF).setWidth 8)).writeByte
    ((number &&& 0xFF).setWidth 8)

def writeChar (c : Byte) (b : Buffer) : Buffer := (b.writeByte 0x00).writeByte c

def writeString (str : CppString) (b : Buffer) : Buffer :=
  str.foldl (fun b c => b.writeChar c) (b.writeShort (BitVec.ofNat 16 str.length))

def writeDouble (raw : Double) (b : Buffer) : Buffer :=
  [7, 6, 5, 4, 3, 2, 1, 0].foldl
    (fun b i => b.writeByte ((raw >>> (i * 8) &&& 0xFF).setWidth 8)) b

def writeUTF16Char (ch : BitVec 16) (b : Buffer) : Buffer :=
  (b.writeByte ((ch >>> 8).setWidth 8)).writeByte ((ch &&& 0xFF).setWidth 8)

def writeUTF16String (str : UTF16String) (b : Buffer) : Buffer :=
  str.foldl (fun b ch => b.writeUTF16Char ch) (b.writeShort (BitVec.ofNat 16 str.length))

def writeBytes (bytes : List Byte) (b : Buffer) : Buffer :=
  bytes.foldl (fun b byte => b.writeByte byte) (b.writeShort (BitVec.ofNat 16 bytes.length))

def writeInt (number : CInt) (b : Buffer) : Buffer :=
  (((b.writeByte ((number.sshiftRight 24 &&& 0xFF).setWidth 8)).writeByte
    ((number.sshiftRight 16 &&& 0xFF).setWidth 8)).writeByte
    ((number.sshiftRight 8 &&& 0xFF).setWidth 8)).writeByte
    ((number &&& 0xFF).setWidth 8)

def writeBool (val : Bool) (b : Buffer) : Buffer := b.writeByte (if val then 1 else 0)

end Buffer

end CarpetSrv.Packet
