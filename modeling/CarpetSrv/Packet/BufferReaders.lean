import CarpetSrv.Packet.Buffer

/-!
# What the readers of the buffer do

For each reader: it only advances the read position, and on the bytes of a
value in network order it returns that value and consumes exactly those bytes.
-/

namespace CarpetSrv.Packet.Buffer

open Foundation Foundation.ExceptState Foundation.BigEndian

/-! ## The primitive readers as functions of the buffer -/

theorem readByte_apply (b : Buffer) :
    readByte b = if b.data.length ≤ b.readPos then .error .bufferUnderflow b
      else .ok (b.data.getD b.readPos default) (b.advance 1) := by
  simp only [readByte, bind_apply, get_apply, ite_run, throw_apply, next_apply, ge_iff_le]

theorem readShort_apply (b : Buffer) :
    readShort b = if b.data.length < b.readPos + 2 then .error .bufferUnderflow b
      else .ok (((b.data.getD b.readPos default).setWidth 16 <<< 8) |||
        (b.data.getD (b.readPos + 1) default).setWidth 16) (b.advance 2) := by
  simp only [readShort, bind_apply, get_apply, ite_run, throw_apply, next_apply, pure_apply,
    gt_iff_lt, ReadCursor.advance_advance, ReadCursor.advance_data, ReadCursor.advance_readPos]

theorem readBytes_apply (beyond : Nat → Byte) (b : Buffer) :
    readBytes beyond b = match readShort b with
      | .error e b' => .error e b'
      | .ok len b' =>
          if len.toInt < 0 then .error .negativeLength b'
          else if (b'.data.length : Int) < len.toInt then .error .notEnoughChars b'
          else .ok ((List.range' b'.readPos len.toInt.toNat).map (byteAt beyond b'))
            (b'.advance len.toInt.toNat) := by
  rw [readBytes, bind_apply]
  cases readShort b with
  | error e b' => rfl
  | ok len b' =>
      simp only [bind_apply, get_apply, ite_run, throw_apply, modify_apply, pure_apply, gt_iff_lt]

/-! ## Readers only advance -/

theorem readByte_within : StaysWithin readByte := by
  intro b
  rw [after, readByte_apply]
  split_ifs
  · exact ⟨0, b.advance_zero.symm, fun h => h⟩
  · exact ⟨1, rfl, fun _ => by omega⟩

theorem readShort_within : StaysWithin readShort := by
  intro b
  rw [after, readShort_apply]
  split_ifs
  · exact ⟨0, b.advance_zero.symm, fun h => h⟩
  · exact ⟨2, rfl, fun _ => by omega⟩

theorem readChar_within : StaysWithin readChar :=
  readShort_within.bind fun _ => .pure _

theorem readChars_within (n : Nat) (result : CppString) : StaysWithin (readChars n result) := by
  induction n generalizing result with
  | zero => exact .pure _
  | succ n ih => exact readChar_within.bind fun _ => ih _

theorem readString_within (maxSize : Int) : StaysWithin (readString maxSize) := by
  apply readShort_within.bind
  intro len
  split_ifs
  · exact .pure _
  · exact .pure _
  · exact readChars_within _ _

theorem readInt_within : StaysWithin readInt :=
  readByte_within.bind fun _ => readByte_within.bind fun _ =>
    readByte_within.bind fun _ => readByte_within.bind fun _ => .pure _

theorem readBool_within : StaysWithin readBool :=
  readByte_within.bind fun _ => .pure _

/-- The loop of `readDouble` has no check of its own. -/
theorem after_readRaw (n : Nat) (raw : Double) (b : Buffer) :
    after (readRaw n raw) b = b.advance n := by
  induction n generalizing raw b with
  | zero => exact b.advance_zero.symm
  | succ n ih =>
      rw [readRaw, after_bind_of_ok (next_apply b), ih, ReadCursor.advance_advance, Nat.add_comm]

theorem readDouble_within : StaysWithin readDouble := by
  apply moves_get
  intro b
  rw [after, bind_of_ok (get_apply b), ite_run]
  split_ifs with h
  · exact ⟨0, b.advance_zero.symm, fun h => h⟩
  · refine ⟨8, after_readRaw 8 0 b, fun _ => by omega⟩

theorem readBytes_advances (beyond : Nat → Byte) : Advances (readBytes beyond) := by
  intro b
  obtain ⟨k, hk⟩ := readShort_within.advances b
  rw [after, readBytes_apply]
  cases h : readShort b with
  | error e b' =>
      rw [after_of_error h] at hk
      exact ⟨k, hk⟩
  | ok len b' =>
      rw [after_of_ok h] at hk
      simp only
      split_ifs
      · exact ⟨k, hk⟩
      · exact ⟨k, hk⟩
      · rw [hk, ReadCursor.advance_advance]
        exact ⟨k + len.toInt.toNat, rfl⟩

/-! ## Encoded values and the readers that recover them -/

/-- A length-prefixed sequence of 16-bit units, as strings are sent. -/
def stringBytes (units : List Short) : List Byte :=
  toBytes 2 (BitVec.ofNat 16 units.length) ++ units.flatMap (toBytes 2)

/-- A length-prefixed byte array. -/
def arrayBytes (bytes : List Byte) : List Byte :=
  toBytes 2 (BitVec.ofNat 16 bytes.length) ++ bytes

@[simp] theorem length_flatMap_units (units : List Short) :
    (units.flatMap (toBytes 2)).length = 2 * units.length := by
  induction units with
  | nil => rfl
  | cons u us ih =>
      rw [List.flatMap_cons, List.length_append, ih, length_toBytes, List.length_cons]
      omega

@[simp] theorem length_stringBytes (units : List Short) :
    (stringBytes units).length = 2 + 2 * units.length := by
  rw [stringBytes, List.length_append, length_toBytes, length_flatMap_units]

@[simp] theorem length_arrayBytes (bytes : List Byte) :
    (arrayBytes bytes).length = 2 + bytes.length := by
  simp [arrayBytes]

/-- A length of at most 32767 survives the narrowing to a signed short. -/
theorem toInt_ofNat_length {n : Nat} (h : n ≤ 32767) : (BitVec.ofNat 16 n).toInt = n := by
  rw [BitVec.toInt_eq_toNat_of_lt]
  · rw [BitVec.toNat_ofNat, Nat.mod_eq_of_lt (by omega)]
  · rw [BitVec.toNat_ofNat, Nat.mod_eq_of_lt (by omega)]
    omega

theorem readByte_reads (x : Byte) : Reads readByte [x] x := by
  intro b ys h
  have hlt := b.readPos_lt_of_rest h
  rw [readByte_apply, if_neg (by omega)]
  exact next_reads (ε := RuntimeError) x b ys h

/-- The two operands of the shift-or in `readShort` are the two bytes of the value. -/
theorem short_of_toBytes (n : Short) :
    (((n >>> 8).setWidth 8).setWidth 16 <<< 8) ||| (n.setWidth 8).setWidth 16 = n := by
  have h := ofBytes_toBytes 2 n (by omega)
  simpa [ofBytes, toBytes, pushByte] using h

theorem readShort_reads (n : Short) : Reads readShort (toBytes 2 n) n := by
  intro b ys h
  have hle := b.length_le_of_rest h (by simp [toBytes])
  rw [length_toBytes] at hle
  have hhigh : b.rest = (n >>> 8).setWidth 8 :: (n.setWidth 8 :: ys) := h
  have hlow : (b.advance 1).rest = n.setWidth 8 :: ys := b.rest_advance (l := [_]) hhigh
  have h0 := b.getElem?_of_rest hhigh
  have h1 := (b.advance 1).getElem?_of_rest hlow
  rw [ReadCursor.advance_data, ReadCursor.advance_readPos] at h1
  rw [readShort_apply, if_neg (Nat.not_lt.mpr hle), List.getD_eq_getElem?_getD,
    List.getD_eq_getElem?_getD, h0, h1, length_toBytes]
  simp only [Option.getD_some, short_of_toBytes]

theorem readChar_reads (u : Short) : Reads readChar (toBytes 2 u) (u.setWidth 8) :=
  (readShort_reads u).map (BitVec.setWidth 8)

theorem readChars_reads (units : List Short) (result : CppString) :
    Reads (readChars units.length result) (units.flatMap (toBytes 2))
      (result ++ units.map (BitVec.setWidth 8)) := by
  induction units generalizing result with
  | nil =>
      rw [List.map_nil, List.append_nil]
      exact Reads.pure result
  | cons u us ih =>
      have htail := ih (result ++ [u.setWidth 8])
      rw [List.append_assoc] at htail
      exact Reads.bind (readChar_reads u) htail

/-- A string that is within the limit and has a length that a short can hold. -/
theorem readString_reads_of_le (maxSize : Int) (units : List Short)
    (hlen : units.length ≤ 32767) (hmax : units.length ≤ maxSize) :
    Reads (readString maxSize) (stringBytes units) (units.map (BitVec.setWidth 8)) := by
  have hi := toInt_ofNat_length hlen
  apply Reads.bind (readShort_reads _)
  rw [hi, if_neg (by omega), if_neg (by omega), Int.toNat_natCast]
  exact readChars_reads units []

theorem readString_reads {n : Nat} (units : List Short) (hlen : units.length ≤ n)
    (hn : n ≤ 32767) :
    Reads (readString n) (stringBytes units) (units.map (BitVec.setWidth 8)) :=
  readString_reads_of_le n units (by omega) (by omega)

/-- The four operands of the shift-or in `readInt` are the four bytes of the value. -/
theorem int_of_toBytes (n : CInt) :
    (((n >>> 24).setWidth 8).setWidth 32 <<< 24) |||
      (((n >>> 16).setWidth 8).setWidth 32 <<< 16) |||
      (((n >>> 8).setWidth 8).setWidth 32 <<< 8) ||| ((n >>> 0).setWidth 8).setWidth 32 = n := by
  have h := ofBytes_toBytes 4 n (by omega)
  simpa [ofBytes, toBytes, pushByte, BitVec.shiftLeft_or_distrib, ← BitVec.shiftLeft_add] using h

theorem readInt_reads (n : CInt) : Reads readInt (toBytes 4 n) n := by
  have hbytes : Reads readInt (toBytes 4 n)
      ((((n >>> 24).setWidth 8).setWidth 32 <<< 24) |||
        (((n >>> 16).setWidth 8).setWidth 32 <<< 16) |||
        (((n >>> 8).setWidth 8).setWidth 32 <<< 8) ||| ((n >>> 0).setWidth 8).setWidth 32) := by
    apply Reads.bind (readByte_reads _)
    apply Reads.bind (readByte_reads _)
    apply Reads.bind (readByte_reads _)
    apply Reads.bind (readByte_reads _)
    exact Reads.pure _
  rwa [int_of_toBytes] at hbytes

theorem readBool_reads (x : Byte) : Reads readBool [x] (x != 0) :=
  (readByte_reads x).map (· != 0)

theorem readRaw_reads (bytes : List Byte) (raw : Double) :
    Reads (readRaw bytes.length raw) bytes (bytes.foldl pushByte raw) := by
  induction bytes generalizing raw with
  | nil => exact Reads.pure raw
  | cons x xs ih => exact Reads.bind (l := [x]) (next_reads x) (ih _)

theorem readDouble_reads (x : Double) : Reads readDouble (toBytes 8 x) x := by
  intro b ys h
  have hle := b.length_le_of_rest h (by simp [toBytes])
  rw [length_toBytes] at hle
  have hraw := readRaw_reads (toBytes 8 x) 0 b ys h
  have hval := ofBytes_toBytes 8 x (by omega)
  rw [ofBytes] at hval
  rw [hval, length_toBytes] at hraw
  simpa only [readDouble, bind_of_ok (get_apply b), gt_iff_lt, if_neg (Nat.not_lt.mpr hle),
    length_toBytes] using hraw

theorem readBytes_reads (beyond : Nat → Byte) (bytes : List Byte) (hlen : bytes.length ≤ 32767) :
    Reads (readBytes beyond) (arrayBytes bytes) bytes := by
  intro b ys h
  rw [arrayBytes, List.append_assoc] at h
  have hs := readShort_reads _ b _ h
  have hrest := b.rest_advance h
  rw [length_toBytes] at hs hrest
  have hi := toInt_ofNat_length hlen
  have hfit : bytes.length ≤ b.data.length := by
    have hl := congrArg List.length hrest
    simp only [ReadCursor.rest, List.length_drop, List.length_append,
      ReadCursor.advance_data] at hl
    omega
  rw [readBytes_apply, hs]
  simp only [hi, ReadCursor.advance_data, Int.toNat_natCast, ReadCursor.advance_advance,
    length_arrayBytes]
  rw [if_neg (by omega), if_neg (by omega)]
  have hbytes : (List.range' (b.advance 2).readPos bytes.length).map
      (byteAt beyond (b.advance 2)) = bytes := by
    apply List.ext_getElem (by simp)
    intro i _ hi'
    have hg : b.data[b.readPos + 2 + i]? = some bytes[i] := by
      have hd := congrArg (fun l => l[i]?) hrest
      rw [← List.getElem?_eq_getElem hi']
      simpa [ReadCursor.rest, List.getElem?_drop, List.getElem?_append_left hi'] using hd
    simp [byteAt, hg]
  rw [hbytes]

end CarpetSrv.Packet.Buffer
