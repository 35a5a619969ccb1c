import CarpetSrv.Packet.BufferWriters

/-!
# The length in front of a sequence

The three sequence writers narrow the size of their value to a signed short and
write every element, whatever the size is. The short that a receiver reads back
is the number of elements exactly up to 32767. From there on it is negative or
has wrapped around.
-/

namespace CarpetSrv.Packet.Buffer

open Foundation Foundation.BigEndian Utils

/-- The writer keeps the contents of the buffer. Behind them stands a short that
reads back as the number of elements, and behind it these elements. -/
def TellsLength (write : Buffer → Buffer) (elements : List (List Byte)) (b : Buffer) : Prop :=
  b.data <+: (write b).data ∧
    ∃ len b', readShort { write b with readPos := b.data.length } = .ok len b' ∧
      len.toInt = elements.length ∧ b'.rest = elements.flatten

/-- The low 16 bits of a number are its signed value exactly up to 32767. -/
theorem toInt_ofNat_eq_iff {n : Nat} : (BitVec.ofNat 16 n).toInt = n ↔ n ≤ 32767 := by
  constructor
  · intro h
    have hlt := BitVec.two_mul_toInt_lt (x := BitVec.ofNat 16 n)
    rw [h] at hlt
    omega
  · exact toInt_ofNat_length

theorem tellsLength_iff {write : Buffer → Buffer} {elements : List (List Byte)} {b : Buffer}
    (h : write b =
      b.addDatas (toBytes 2 (BitVec.ofNat 16 elements.length) ++ elements.flatten)) :
    TellsLength write elements b ↔ elements.length ≤ 32767 := by
  have hrest : ({ write b with readPos := b.data.length } : Buffer).rest =
      toBytes 2 (BitVec.ofNat 16 elements.length) ++ elements.flatten := by
    rw [h]
    exact List.drop_left
  have hread := readShort_reads _ _ _ hrest
  constructor
  · rintro ⟨_, len, b', hlen, hcount, _⟩
    cases hread.symm.trans hlen
    exact toInt_ofNat_eq_iff.mp hcount
  · intro hle
    refine ⟨?_, _, _, hread, toInt_ofNat_length hle, ReadCursor.rest_advance _ hrest⟩
    rw [h]
    exact List.prefix_append ..

/-- What the three writers put behind the length. -/
def charElements (str : CppString) : List (List Byte) := str.map fun c => toBytes 2 (c.setWidth 16)

def byteElements (bytes : List Byte) : List (List Byte) := bytes.map fun byte => [byte]

def unitElements (str : UTF16String) : List (List Byte) := str.map (toBytes 2)

theorem tellsLength_writeString_iff (str : CppString) (b : Buffer) :
    TellsLength (writeString str) (charElements str) b ↔ str.length ≤ 32767 := by
  have hlen : (charElements str).length = str.length := List.length_map ..
  rw [← hlen]
  apply tellsLength_iff
  rw [writeString_eq, stringBytes, unitsOf, List.length_map, List.flatMap_map, hlen]
  rfl

theorem tellsLength_writeBytes_iff (bytes : List Byte) (b : Buffer) :
    TellsLength (writeBytes bytes) (byteElements bytes) b ↔ bytes.length ≤ 32767 := by
  have hlen : (byteElements bytes).length = bytes.length := List.length_map ..
  have hflat : (byteElements bytes).flatten = bytes := List.flatMap_singleton' bytes
  rw [← hlen]
  apply tellsLength_iff
  rw [writeBytes_eq, arrayBytes, hlen, hflat]

theorem tellsLength_writeUTF16String_iff (us : UTF16String) (b : Buffer) :
    TellsLength (writeUTF16String us) (unitElements us) b ↔ us.length ≤ 32767 := by
  have hlen : (unitElements us).length = us.length := List.length_map ..
  rw [← hlen]
  apply tellsLength_iff
  rw [writeUTF16String_eq, stringBytes, hlen]
  rfl

/-- The written length is true exactly for sequences of at most 32767
elements. No writer throws on a longer one. -/
theorem tellsLength_iff_length_le (b : Buffer) (str : CppString) (bytes : List Byte)
    (us : UTF16String) :
    (TellsLength (writeString str) (charElements str) b ↔ str.length ≤ 32767) ∧
      (TellsLength (writeBytes bytes) (byteElements bytes) b ↔ bytes.length ≤ 32767) ∧
      (TellsLength (writeUTF16String us) (unitElements us) b ↔ us.length ≤ 32767) :=
  ⟨tellsLength_writeString_iff str b, tellsLength_writeBytes_iff bytes b,
    tellsLength_writeUTF16String_iff us b⟩

/-- The length field of 32768 bytes is negative. -/
theorem length_of_long_array_untold :
    ¬ TellsLength (writeBytes (List.replicate 32768 0))
      (byteElements (List.replicate 32768 0)) {} := by
  rw [tellsLength_writeBytes_iff, List.length_replicate]
  decide

end CarpetSrv.Packet.Buffer
