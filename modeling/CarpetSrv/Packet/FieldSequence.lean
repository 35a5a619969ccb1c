import CarpetSrv.Packet.BufferWriters

/-!
# Sequences of typed fields

A packet is a sequence of fields behind its id. A field type names the pair of
operations that write and read a field, and a field is a value that its type
can carry. Whatever fields are written one behind the other, and whatever
stands before and behind them, reading by their types returns them.

## Implementation notes

A field carries the proof that its type can carry its value, so a string
beyond the limit of its reader is no field.
-/

namespace CarpetSrv.Packet

open Foundation Foundation.ExceptState Foundation.BigEndian Buffer

/-- The types of fields. A string is read with a limit on its length. -/
inductive FieldType
  | byte
  | short
  | char
  | int
  | bool
  | double
  | string (maxSize : Int)
  | bytes
  deriving DecidableEq

/-- The value of a field. -/
inductive Datum
  | byte (x : Byte)
  | short (number : Short)
  | char (c : Byte)
  | int (number : CInt)
  | bool (val : Bool)
  | double (raw : Double)
  | string (str : CppString)
  | bytes (xs : List Byte)
  deriving DecidableEq

/-- The write operation of a value. -/
def Datum.write : Datum → Buffer → Buffer
  | .byte x => writeByte x
  | .short number => writeShort number
  | .char c => writeChar c
  | .int number => writeInt number
  | .bool val => writeBool val
  | .double raw => writeDouble raw
  | .string str => writeString str
  | .bytes xs => writeBytes xs

/-- The bytes of a value in network order. -/
def Datum.encoding : Datum → List Byte
  | .byte x => [x]
  | .short number => toBytes 2 number
  | .char c => toBytes 2 (c.setWidth 16)
  | .int number => toBytes 4 number
  | .bool val => [if val then 1 else 0]
  | .double raw => toBytes 8 raw
  | .string str => stringBytes (unitsOf str)
  | .bytes xs => arrayBytes xs

namespace FieldType

/-- The read operation of a field type. -/
def read (beyond : Nat → Byte) : FieldType → BufferReader Datum
  | byte => do return .byte (← readByte)
  | short => do return .short (← readShort)
  | char => do return .char (← readChar)
  | int => do return .int (← readInt)
  | bool => do return .bool (← readBool)
  | double => do return .double (← readDouble)
  | string maxSize => do return .string (← readString maxSize)
  | bytes => do return .bytes (← readBytes beyond)

/-- The values that a field type carries. A length is a short that is not negative. -/
def Carries : FieldType → Datum → Prop
  | byte, .byte _ | short, .short _ | char, .char _ | int, .int _ | bool, .bool _
  | double, .double _ => True
  | string maxSize, .string str => str.length ≤ 32767 ∧ str.length ≤ maxSize
  | bytes, .bytes xs => xs.length ≤ 32767
  | _, _ => False

end FieldType

/-- A value with a type that carries it. -/
structure Field where
  type : FieldType
  datum : Datum
  carried : type.Carries datum

/-- Write values one behind the other. -/
def writeSequence (data : List Datum) (b : Buffer) : Buffer :=
  data.foldl (fun b datum => datum.write b) b

/-- Read fields of these types one behind the other. -/
def readSequence (beyond : Nat → Byte) : List FieldType → BufferReader (List Datum)
  | [] => pure []
  | type :: types => do
      let datum ← type.read beyond
      let data ← readSequence beyond types
      return datum :: data

/-! ## One field -/

theorem Datum.write_eq (b : Buffer) (datum : Datum) :
    datum.write b = b.addDatas datum.encoding := by
  cases datum with
  | byte x => exact writeByte_eq b x
  | short number => exact writeShort_eq b number
  | char c => exact writeChar_eq b c
  | int number => exact writeInt_eq b number
  | bool val => exact writeByte_eq b _
  | double raw => exact writeDouble_eq b raw
  | string str => exact writeString_eq b str
  | bytes xs => exact writeBytes_eq b xs

theorem setWidth_unit (c : Byte) : (c.setWidth 16).setWidth 8 = c := by
  rw [BitVec.setWidth_setWidth (by omega), BitVec.setWidth_eq]

theorem unitsOf_map (str : CppString) : (unitsOf str).map (BitVec.setWidth 8) = str := by
  rw [unitsOf, List.map_map, show BitVec.setWidth 8 ∘ BitVec.setWidth 16 = @id Byte from
    funext setWidth_unit, List.map_id]

theorem Field.reads (beyond : Nat → Byte) (field : Field) :
    Reads (field.type.read beyond) field.datum.encoding field.datum := by
  obtain ⟨type, datum, carried⟩ := field
  cases type <;> cases datum <;> try exact carried.elim
  case byte x => exact (readByte_reads x).map Datum.byte
  case short number => exact (readShort_reads number).map Datum.short
  case char c =>
      have hread := (readChar_reads (c.setWidth 16)).map Datum.char
      rwa [setWidth_unit] at hread
  case int number => exact (readInt_reads number).map Datum.int
  case bool val =>
      have hval : ((if val then 1 else 0 : Byte) != 0) = val := by cases val <;> decide
      have hread := (readBool_reads (if val then 1 else 0)).map Datum.bool
      rwa [hval] at hread
  case double raw => exact (readDouble_reads raw).map Datum.double
  case string maxSize str =>
      have hlen : (unitsOf str).length = str.length := List.length_map ..
      have hread := (readString_reads_of_le maxSize (unitsOf str)
        (by rw [hlen]; exact carried.1) (by rw [hlen]; exact carried.2)).map Datum.string
      rwa [unitsOf_map] at hread
  case bytes xs => exact (readBytes_reads beyond xs carried).map Datum.bytes

/-! ## Whole sequences -/

theorem writeSequence_eq (b : Buffer) (data : List Datum) :
    writeSequence data b = b.addDatas (data.flatMap Datum.encoding) :=
  foldl_addDatas b Datum.write_eq data

theorem readSequence_reads (beyond : Nat → Byte) (fields : List Field) :
    Reads (readSequence beyond (fields.map Field.type))
      ((fields.map Field.datum).flatMap Datum.encoding) (fields.map Field.datum) := by
  induction fields with
  | nil => exact Reads.pure []
  | cons field fields ih => exact Reads.bind (field.reads beyond) (ih.map (field.datum :: ·))

/-- Fields written behind the contents of a buffer, with any bytes behind
them, are read back from where they start, and the read position ends behind
the last of them. -/
theorem readSequence_writeSequence (beyond : Nat → Byte) (fields : List Field) (b : Buffer)
    (behind : List Byte) :
    ∃ encoding b', (writeSequence (fields.map Field.datum) b).data = b.data ++ encoding ∧
      readSequence beyond (fields.map Field.type)
        { data := b.data ++ encoding ++ behind, readPos := b.data.length } =
          .ok (fields.map Field.datum) b' ∧
      b'.readPos = b.data.length + encoding.length := by
  refine ⟨(fields.map Field.datum).flatMap Datum.encoding, _, ?_,
    readSequence_reads beyond fields _ behind ?_, ?_⟩
  · rw [writeSequence_eq]
    rfl
  · rw [ReadCursor.rest, List.append_assoc, List.drop_left]
  · rfl

end CarpetSrv.Packet
