import CarpetSrv.Packet.Packets

/-!
# What the writers of the buffer append

For each writer: it appends the bytes of its value in network order, which are
the bytes that the reader of the same type recovers the value from. A sequence
field appends its length and then its elements.
-/

namespace CarpetSrv.Packet.Buffer

open Foundation Foundation.BigEndian Utils

variable (b : Buffer)

/-- Masking a byte with `0xFF` changes nothing. -/
theorem byte_and_mask (x : Byte) : x &&& 255#8 = x :=
  BitVec.and_allOnes

/-- The low byte of a word shifted right does not see its sign. -/
theorem lowByte_sshiftRight {w : Nat} (n : BitVec w) {k : Nat} (h : k + 8 ≤ w) :
    (n.sshiftRight k).setWidth 8 = (n >>> k).setWidth 8 := by
  apply BitVec.eq_of_getLsbD_eq
  intro i hi
  have hk : k + i < w := by omega
  have hw : ¬ w ≤ i := by omega
  simp only [BitVec.getLsbD_setWidth, BitVec.getLsbD_sshiftRight, BitVec.getLsbD_ushiftRight, hk,
    hw, if_true, decide_false, Bool.not_false, Bool.true_and]

theorem writeByte_eq (b : Buffer) (byte : Byte) : b.writeByte byte = b.addDatas [byte] := rfl

theorem writeShort_eq (n : Short) : b.writeShort n = b.addDatas (toBytes 2 n) := by
  simp [writeShort, writeByte, addDatas, toBytes, byte_and_mask, lowByte_sshiftRight]

theorem writeInt_eq (n : CInt) : b.writeInt n = b.addDatas (toBytes 4 n) := by
  simp [writeInt, writeByte, addDatas, toBytes, byte_and_mask, lowByte_sshiftRight]

theorem writeDouble_eq (x : Double) : b.writeDouble x = b.addDatas (toBytes 8 x) := by
  simp [writeDouble, writeByte, addDatas, toBytes, byte_and_mask]

theorem writeChar_eq (c : Byte) : b.writeChar c = b.addDatas (toBytes 2 (c.setWidth 16)) := by
  have hhigh : (c.setWidth 16 >>> 8).setWidth 8 = (0 : Byte) := by
    apply BitVec.eq_of_getLsbD_eq
    intro i hi
    simp
  simp [writeChar, writeByte, addDatas, toBytes, hhigh]

theorem writeUTF16Char_eq (ch : BitVec 16) : b.writeUTF16Char ch = b.addDatas (toBytes 2 ch) := by
  simp [writeUTF16Char, writeByte, addDatas, toBytes, byte_and_mask]

/-- Elements that are appended one by one are appended as a whole. -/
theorem foldl_addDatas {α : Type} {write : Buffer → α → Buffer} {bytes : α → List Byte}
    (h : ∀ b a, write b a = b.addDatas (bytes a)) (as : List α) :
    as.foldl write b = b.addDatas (as.flatMap bytes) := by
  induction as generalizing b with
  | nil => simp [addDatas]
  | cons a as ih => rw [List.foldl_cons, ih, h, addDatas_addDatas, List.flatMap_cons]

/-- The units that the characters of a string are sent as. -/
def unitsOf (str : CppString) : List Short := str.map (BitVec.setWidth 16)

theorem writeString_eq (str : CppString) :
    b.writeString str = b.addDatas (stringBytes (unitsOf str)) := by
  rw [writeString, foldl_addDatas _ writeChar_eq, writeShort_eq, addDatas_addDatas, stringBytes,
    unitsOf, List.length_map, List.flatMap_map]

theorem writeBytes_eq (bytes : List Byte) :
    b.writeBytes bytes = b.addDatas (arrayBytes bytes) := by
  rw [writeBytes, foldl_addDatas _ writeByte_eq, writeShort_eq, addDatas_addDatas, arrayBytes,
    List.flatMap_singleton']

theorem writeUTF16String_eq (str : UTF16String) :
    b.writeUTF16String str = b.addDatas (stringBytes str) := by
  rw [writeUTF16String, foldl_addDatas _ writeUTF16Char_eq, writeShort_eq, addDatas_addDatas,
    stringBytes]

end CarpetSrv.Packet.Buffer
