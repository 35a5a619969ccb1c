import CarpetSrv.Network.Connection
import CarpetSrv.Packet.LengthPrefix
import CarpetSrv.Packet.FieldSequence
import CarpetSrv.Packet.PacketStream

/-!
# The answer to a server ping

The answer is a mark and six fields, each with a zero unit behind it. No field
contains a zero unit as long as the two texts contain no zero byte, so cutting
at the zero units returns the fields, and the fields determine the arguments.
-/

namespace CarpetSrv.Network

open Foundation Foundation.BigEndian Packet Buffer Utils

/-! ## Numerals -/

/-- A character whose code fits into a byte is recovered from the byte. -/
theorem literal_inj {cs ds : List Char} (hc : ∀ c ∈ cs, c.toNat < 256)
    (hd : ∀ d ∈ ds, d.toNat < 256) (h : literal cs = literal ds) : cs = ds := by
  have hinj : ∀ c : Char, c.toNat < 256 → Char.ofNat (BitVec.ofNat 8 c.toNat).toNat = c := by
    intro c hlt
    rw [BitVec.toNat_ofNat, Nat.mod_eq_of_lt hlt, Char.ofNat_toNat]
  have hback : ∀ cs : List Char, (∀ c ∈ cs, c.toNat < 256) →
      (literal cs).map (fun b => Char.ofNat b.toNat) = cs := by
    intro cs hcs
    rw [literal, List.map_map]
    exact (List.map_congr_left fun c hmem => hinj c (hcs c hmem)).trans (List.map_id cs)
  rw [← hback cs hc, h, hback ds hd]

theorem digit_bounds {n : Nat} {c : Char} (hc : c ∈ Nat.toDigits 10 n) :
    48 ≤ c.toNat ∧ c.toNat ≤ 57 := by
  have hdigit := Nat.isDigit_of_mem_toDigits (by decide) (by decide) hc
  rw [Char.isDigit, Bool.and_eq_true, decide_eq_true_iff, decide_eq_true_iff] at hdigit
  exact hdigit

theorem numeral_inj {m n : Nat} (h : literal (Nat.toDigits 10 m) = literal (Nat.toDigits 10 n)) :
    m = n := by
  have hdigits : Nat.toDigits 10 m = Nat.toDigits 10 n :=
    literal_inj (fun c hc => Nat.lt_of_le_of_lt (digit_bounds hc).2 (by decide))
      (fun c hc => Nat.lt_of_le_of_lt (digit_bounds hc).2 (by decide)) h
  have hvalue := congrArg (fun ds => Nat.ofDigitChars 10 ds 0) hdigits
  simpa using hvalue

theorem mem_numeral {n : Nat} {b : Byte} (hb : b ∈ literal (Nat.toDigits 10 n)) :
    48 ≤ b ∧ b ≤ 57 := by
  obtain ⟨c, hc, rfl⟩ := List.mem_map.mp hb
  have hbounds := digit_bounds hc
  rw [BitVec.le_def, BitVec.le_def, BitVec.toNat_ofNat,
    Nat.mod_eq_of_lt (Nat.lt_of_le_of_lt hbounds.2 (by decide))]
  exact hbounds

/-- The sign is no digit. -/
theorem sign_numeral_ne {m n : Nat} :
    literal ['-'] ++ literal (Nat.toDigits 10 m) ≠ [] ++ literal (Nat.toDigits 10 n) := by
  intro h
  have hsign : (45 : Byte) ∈ literal (Nat.toDigits 10 n) := by
    rw [List.nil_append] at h
    rw [← h]
    exact List.mem_cons_self
  exact absurd (mem_numeral hsign).1 (by decide)

theorem toString_inj {m n : Int} (h : toString m = toString n) : m = n := by
  rw [toString, toString] at h
  split_ifs at h with hm hn hn
  · have habs := numeral_inj (List.append_cancel_left h)
    omega
  · exact absurd h sign_numeral_ne
  · exact absurd h.symm sign_numeral_ne
  · have habs := numeral_inj (List.append_cancel_left h)
    omega

theorem zero_notMem_toString (n : Int) : 0 ∉ toString n := by
  rw [toString, List.mem_append]
  rintro (hsign | hdigit)
  · split_ifs at hsign
    · exact absurd hsign (by decide)
    · cases hsign
  · exact absurd (mem_numeral hdigit).1 (by decide)

/-! ## The fields of the answer -/

/-- The six texts in the order in which the answer carries them. -/
def infoFields (version motd : CppString) (currentPlayers maxPlayers : Int) : List UTF16String :=
  [literal ['1'], literal ['5', '1'], version, motd, toString currentPlayers,
    toString maxPlayers].map UTF16String.ofString

theorem serializeServerInfo_eq (version motd : CppString) (currentPlayers maxPlayers : Int) :
    serializeServerInfo version motd currentPlayers maxPlayers =
      0x00A7 :: (infoFields version motd currentPlayers maxPlayers).flatMap (· ++ [0]) := by
  simp [serializeServerInfo, infoFields, UTF16String.append, UTF16String.appendUnit]

theorem zero_mem_ofString {str : CppString} (h : (0 : BitVec 16) ∈ UTF16String.ofString str) :
    0 ∈ str := by
  obtain ⟨c, hc, hzero⟩ := List.mem_map.mp h
  have hback := congrArg (BitVec.setWidth 8) hzero
  rw [setWidth_unit] at hback
  rwa [hback] at hc

theorem ofString_inj {s t : CppString} (h : UTF16String.ofString s = UTF16String.ofString t) :
    s = t := by
  rw [← unitsOf_map s, ← unitsOf_map t]
  exact congrArg (List.map (BitVec.setWidth 8)) h

theorem zero_notMem_infoFields {version motd : CppString} (hv : 0 ∉ version) (hm : 0 ∉ motd)
    (currentPlayers maxPlayers : Int) :
    ∀ field ∈ infoFields version motd currentPlayers maxPlayers, 0 ∉ field := by
  intro field hfield hzero
  obtain ⟨text, htext, rfl⟩ := List.mem_map.mp hfield
  have h := zero_mem_ofString hzero
  simp only [List.mem_cons, List.not_mem_nil, or_false] at htext
  rcases htext with rfl | rfl | rfl | rfl | rfl | rfl
  · exact absurd h (by decide)
  · exact absurd h (by decide)
  · exact hv h
  · exact hm h
  · exact zero_notMem_toString _ h
  · exact zero_notMem_toString _ h

/-- Cutting behind every terminator returns the terminated lists, with nothing left over. -/
theorem splitOn_terminated {fields : List UTF16String} (h : ∀ field ∈ fields, 0 ∉ field) :
    (fields.flatMap (· ++ [0])).splitOn 0 = fields ++ [[]] := by
  induction fields with
  | nil => rfl
  | cons field fields ih =>
      rw [List.flatMap_cons, List.append_assoc, List.singleton_append,
        List.splitOn_append_cons_self_of_not_mem (h field List.mem_cons_self),
        ih fun f hf => h f (List.mem_cons_of_mem _ hf)]
      rfl

/-- The fields determine the arguments. -/
theorem infoFields_inj {version motd version' motd' : CppString}
    {currentPlayers maxPlayers currentPlayers' maxPlayers' : Int}
    (h : infoFields version motd currentPlayers maxPlayers =
      infoFields version' motd' currentPlayers' maxPlayers') :
    version = version' ∧ motd = motd' ∧ currentPlayers = currentPlayers' ∧
      maxPlayers = maxPlayers' := by
  simp only [infoFields, List.map_cons, List.cons.injEq] at h
  obtain ⟨_, _, hversion, hmotd, hcurrent, hmax, _⟩ := h
  exact ⟨ofString_inj hversion, ofString_inj hmotd, toString_inj (ofString_inj hcurrent),
    toString_inj (ofString_inj hmax)⟩

/-- The kick packet of an answer carries the number of its units and then the
units. They are a mark and six terminated fields, and they determine the arguments. -/
theorem server_info_parsed_back {version motd : CppString} {currentPlayers maxPlayers : Int}
    (hv : 0 ∉ version) (hm : 0 ∉ motd)
    (hlen : (serializeServerInfo version motd currentPlayers maxPlayers).length ≤ 32767) :
    (∃ len b', readShort { KickPacket.writeData
        ⟨serializeServerInfo version motd currentPlayers maxPlayers⟩ {} with readPos := 1 } =
          .ok len b' ∧
      len.toInt = (serializeServerInfo version motd currentPlayers maxPlayers).length ∧
      b'.rest =
        (serializeServerInfo version motd currentPlayers maxPlayers).flatMap (toBytes 2)) ∧
    (∃ rest, serializeServerInfo version motd currentPlayers maxPlayers = 0x00A7 :: rest ∧
      rest.splitOn 0 = infoFields version motd currentPlayers maxPlayers ++ [[]]) ∧
    ∀ version' motd' currentPlayers' maxPlayers', 0 ∉ version' → 0 ∉ motd' →
      (serializeServerInfo version' motd' currentPlayers' maxPlayers').length ≤ 32767 →
      (KickPacket.writeData ⟨serializeServerInfo version motd currentPlayers maxPlayers⟩ {}).data =
        (KickPacket.writeData
          ⟨serializeServerInfo version' motd' currentPlayers' maxPlayers'⟩ {}).data →
      version = version' ∧ motd = motd' ∧ currentPlayers = currentPlayers' ∧
        maxPlayers = maxPlayers' := by
  have hfields := zero_notMem_infoFields hv hm currentPlayers maxPlayers
  refine ⟨?_, ⟨_, serializeServerInfo_eq .., splitOn_terminated hfields⟩, ?_⟩
  · obtain ⟨_, len, b', hread, hcount, hrest⟩ := (tellsLength_writeUTF16String_iff
      (serializeServerInfo version motd currentPlayers maxPlayers)
      (Buffer.writeByte 0xFF {})).mpr hlen
    rw [unitElements, List.length_map] at hcount
    exact ⟨len, b', hread, hcount, hrest⟩
  · intro version' motd' currentPlayers' maxPlayers' hv' hm' hlen' heq
    have hanswers : serializeServerInfo version motd currentPlayers maxPlayers =
        serializeServerInfo version' motd' currentPlayers' maxPlayers' :=
      SentPacket.kick_inj hlen hlen' heq
    rw [serializeServerInfo_eq, serializeServerInfo_eq] at hanswers
    have hcut := congrArg (List.splitOn 0) (List.cons.inj hanswers).2
    rw [splitOn_terminated hfields,
      splitOn_terminated (zero_notMem_infoFields hv' hm' currentPlayers' maxPlayers')] at hcut
    exact infoFields_inj (List.append_cancel_right hcut)

/-- The answer that the handler of a ping sends. -/
theorem server_info_parsed_back_ping :
    ∃ rest, serializeServerInfo (literal ['1', '.', '4', '.', '7'])
        (literal ("A server running Carpet SRV".toList)) 0 20 = 0x00A7 :: rest ∧
      rest.splitOn 0 = infoFields (literal ['1', '.', '4', '.', '7'])
        (literal ("A server running Carpet SRV".toList)) 0 20 ++ [[]] :=
  (server_info_parsed_back (by decide +kernel) (by decide +kernel) (by decide +kernel)).2.1

end CarpetSrv.Network
