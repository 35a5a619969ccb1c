import CarpetSrv.Packet.PacketStream

/-!
# The two ways to widen a reason

`createUTF16String` converts each `char` to an `unsigned short`, which extends
its sign. The constructor of `UTF16String` converts it to an `unsigned char`
first. Both give the same units, and the same bytes in a kick packet, exactly
for texts of bytes below 0x80.
-/

namespace CarpetSrv.Packet

open Foundation Foundation.BigEndian Buffer Utils

theorem appendUnit_signExtend (us : UTF16String) (c : Byte) :
    us.appendUnit ((c.signExtend 16).setWidth 32) = us ++ [c.signExtend 16] := by
  rw [UTF16String.appendUnit, BitVec.setWidth_setWidth (by omega), BitVec.setWidth_eq]

/-- Appending the characters one by one extends the sign of each. -/
theorem createUTF16String_eq_map (msg : CppString) :
    createUTF16String msg = msg.map (BitVec.signExtend 16) := by
  have happend : ∀ us : UTF16String,
      msg.foldl (fun us c => us.appendUnit ((c.signExtend 16).setWidth 32)) us =
        us ++ msg.map (BitVec.signExtend 16) := by
    induction msg with
    | nil =>
        intro us
        exact (List.append_nil us).symm
    | cons c cs ih =>
        intro us
        rw [List.foldl_cons, ih, appendUnit_signExtend, List.append_assoc]
        rfl
  exact happend []

/-- Extending the sign is extending with zeros exactly where there is no sign. -/
theorem signExtend_eq_setWidth_iff (c : Byte) : c.signExtend 16 = c.setWidth 16 ↔ c < 0x80 := by
  have hmsb : c.msb = false ↔ c < 0x80 := BitVec.msb_eq_false_iff_two_mul_lt.trans (by bv_omega)
  rw [← hmsb]
  constructor
  · intro h
    have hsign := congrArg BitVec.msb h
    rw [BitVec.msb_signExtend, BitVec.msb_setWidth] at hsign
    simpa using hsign
  · exact BitVec.signExtend_eq_setWidth_of_msb_false

theorem createUTF16String_eq_iff (msg : CppString) :
    createUTF16String msg = .ofString msg ↔ ∀ c ∈ msg, c < 0x80 := by
  rw [createUTF16String_eq_map, UTF16String.ofString, List.map_inj_left]
  exact forall₂_congr fun c _ => signExtend_eq_setWidth_iff c

/-- Reasons of one length are told apart by the bytes of their packets. -/
theorem kick_writeData_inj {us vs : UTF16String} (hlen : us.length = vs.length) (b : Buffer) :
    (KickPacket.writeData ⟨us⟩ b).data = (KickPacket.writeData ⟨vs⟩ b).data ↔ us = vs := by
  constructor
  · intro h
    simp only [KickPacket.writeData, writeUTF16String_eq, stringBytes, hlen] at h
    have hunits : us.flatMap (toBytes 2) ++ [] = vs.flatMap (toBytes 2) ++ [] := by
      rw [List.append_nil, List.append_nil]
      exact List.append_cancel_left (List.append_cancel_left h)
    exact ((word_selfDelimiting (by decide)).flatMap_inj (fun _ _ => trivial)
      (fun _ _ => trivial) hlen hunits).1
  · rintro rfl
    rfl

/-- The two ways agree, and so do the bytes of the kick packets, exactly when
every byte of the text is below 0x80. -/
theorem widenings_agree_iff (msg : CppString) :
    (createUTF16String msg = .ofString msg ↔ ∀ c ∈ msg, c < 0x80) ∧
      ∀ b, (KickPacket.writeData ⟨createUTF16String msg⟩ b).data =
          (KickPacket.writeData ⟨.ofString msg⟩ b).data ↔ ∀ c ∈ msg, c < 0x80 := by
  have hlen : (createUTF16String msg).length = (UTF16String.ofString msg).length := by
    rw [createUTF16String_eq_map, UTF16String.ofString, List.length_map, List.length_map]
  refine ⟨createUTF16String_eq_iff msg, ?_⟩
  intro b
  exact (kick_writeData_inj hlen b).trans (createUTF16String_eq_iff msg)

/-- The byte 0xE9 becomes 0xFFE9 on one way and 0x00E9 on the other. -/
theorem widenings_differ :
    createUTF16String [0xE9] ≠ .ofString [0xE9] ∧
      (KickPacket.writeData ⟨createUTF16String [0xE9]⟩ {}).data ≠
        (KickPacket.writeData ⟨.ofString [0xE9]⟩ {}).data := by
  decide

end CarpetSrv.Packet
