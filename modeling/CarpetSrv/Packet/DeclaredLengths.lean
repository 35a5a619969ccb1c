import CarpetSrv.Foundation.SizedReader
import CarpetSrv.Packet.FieldArrival
import CarpetSrv.Packet.WireFormat

/-!
# Declared lengths

A string declares its length in front of its characters. `readBytes` throws
for a length that it does not accept. `readString` reports one on the console,
returns the empty string and leaves the characters to the fields behind it.
The handshake and the client information are decoded field by field from
their own bytes exactly where every declared length is accepted, or the
buffer ends before the bytes that the readers take.
-/

namespace CarpetSrv.Packet

open Foundation Foundation.ExceptState Foundation.BigEndian Buffer

/-- The length is not negative and not above the limit. -/
def InLimit (limit : Int) (len : Short) : Prop := 0 ≤ len.toInt ∧ len.toInt ≤ limit

instance (limit : Int) (len : Short) : Decidable (InLimit limit len) :=
  inferInstanceAs (Decidable (_ ∧ _))

/-- The number of bytes that `readString` takes when this length is declared. -/
def stringSpan (limit : Int) (len : Short) : Nat :=
  2 + if InLimit limit len then 2 * len.toInt.toNat else 0

/-- When the reader returns, it has decoded one packet from the bytes of that
packet and has consumed exactly these. -/
def Synchronised {α : Type} (read : BufferReader α) (Decodes : ClientPacket → α → Prop)
    (b : Buffer) : Prop :=
  ∀ p b', read b = .ok p b' → ∃ (sent : ClientPacket) (ys : List Byte),
    sent.WellFormed ∧ Decodes sent p ∧ b.rest = sent.body ++ ys ∧
      b' = b.advance sent.body.length

def DecodesHandshake : ClientPacket → ClientProtocolPacket → Prop
  | .clientProtocol version username serverHost serverPort, p =>
      p = clientProtocolPacket version username serverHost serverPort
  | _, _ => False

def DecodesClientInfo : ClientPacket → ClientInfoPacket → Prop
  | .clientInfo language renderDistance number gameDifficulty showCape, p =>
      p = clientInfoPacket language renderDistance number gameDifficulty showCape
  | _, _ => False

section Declared

variable (b : Buffer)

/-- The length that the handshake packet declares for the user name. -/
def usernameLength : Short := shortAt (b.advance 1)

/-- The buffer behind what the reader takes for the user name. -/
def behindUsername : Buffer := (b.advance 1).advance (stringSpan 16 (usernameLength b))

/-- The short that the reader takes for the declared length of the server host. -/
def serverHostLength : Short := shortAt (behindUsername b)

/-- The number of bytes that the reader of the handshake packet takes. -/
def handshakeSpan : Nat :=
  1 + (stringSpan 16 (usernameLength b) + (stringSpan 255 (serverHostLength b) + 4))

/-- The number of bytes that the reader of the client information takes. -/
def clientInfoSpan : Nat := stringSpan 7 (shortAt b) + (4 + (4 + (1 + 1)))

end Declared

/-! ## The number of bytes that a reader takes -/

section Takes

variable {b : Buffer}

theorem readByte_takes : TakesAt readByte b 1 := by
  apply TakesAt.of_check (e := .bufferUnderflow) Nat.one_pos
  rw [readByte_apply]
  simp only [Nat.lt_succ_iff]
  rfl

theorem readShort_takes : TakesAt readShort b 2 :=
  .of_check Nat.two_pos (readShort_apply b)

theorem readChars_takes (n : Nat) (result : CppString) :
    TakesAt (readChars n result) b (2 * n) := by
  induction n generalizing b result with
  | zero => exact .pure result
  | succ n ih =>
      have hchar : TakesAt readChar b 2 := readShort_takes.map _
      have hspan : 2 * (n + 1) = 2 + 2 * n := by omega
      rw [hspan]
      exact hchar.bind fun _ _ => ih _

theorem shortAt_of_ok {n : Short} {b' : Buffer} (h : readShort b = .ok n b') : n = shortAt b := by
  rw [readShort_apply] at h
  split_ifs at h
  cases h
  rfl

theorem shortAt_of_rest {n : Short} {ys : List Byte} (h : b.rest = toBytes 2 n ++ ys) :
    shortAt b = n :=
  (shortAt_of_ok (readShort_reads n b ys h)).symm

theorem readString_takes (limit : Int) :
    TakesAt (readString limit) b (stringSpan limit (shortAt b)) := by
  apply readShort_takes.bind
  intro len hlen
  rw [shortAt_of_ok hlen]
  by_cases hin : InLimit limit (shortAt b)
  · rw [if_neg (Int.not_lt.mpr hin.2), if_neg (Int.not_lt.mpr hin.1), if_pos hin]
    exact readChars_takes _ _
  · rw [if_neg hin]
    split_ifs with hlong hneg
    · exact .pure []
    · exact .pure []
    · exact absurd ⟨Int.not_lt.mp hneg, Int.not_lt.mp hlong⟩ hin

theorem readInt_takes : TakesAt readInt b 4 :=
  readByte_takes.bind fun _ _ => readByte_takes.bind (k := 2) fun _ _ =>
    readByte_takes.bind (k := 1) fun _ _ => readByte_takes.map _

theorem readBool_takes : TakesAt readBool b 1 := readByte_takes.map _

theorem clientProtocol_takes : TakesAt ClientProtocolPacket.readData b (handshakeSpan b) :=
  readByte_takes.bind fun _ _ => (readString_takes 16).bind fun _ _ =>
    (readString_takes 255).bind fun _ _ => readInt_takes.map _

theorem clientInfo_takes : TakesAt ClientInfoPacket.readData b (clientInfoSpan b) :=
  (readString_takes 7).bind fun _ _ => readInt_takes.bind fun _ _ =>
    readInt_takes.bind fun _ _ => readByte_takes.bind fun _ _ => readBool_takes.map _

end Takes

/-! ## Fields in a list of bytes -/

theorem exists_units {n : Nat} {bytes : List Byte} (h : 2 * n ≤ bytes.length) :
    ∃ (us : List Short) (ys : List Byte), us.length = n ∧
      bytes = us.flatMap (toBytes 2) ++ ys := by
  induction n generalizing bytes with
  | zero => exact ⟨[], bytes, rfl, rfl⟩
  | succ n ih =>
      obtain ⟨u, tail, rfl⟩ := exists_toBytes (w := 16) (k := 2) bytes (by omega) (by omega)
      rw [List.length_append, length_toBytes] at h
      have htail : 2 * n ≤ tail.length := by omega
      obtain ⟨us, ys, hlen, rfl⟩ := ih htail
      refine ⟨u :: us, ys, by rw [List.length_cons, hlen], ?_⟩
      rw [List.flatMap_cons, List.append_assoc]

/-- A length that is not negative is the number that the short holds. -/
theorem ofNat_toInt {len : Short} (h : 0 ≤ len.toInt) : BitVec.ofNat 16 len.toInt.toNat = len := by
  apply BitVec.eq_of_toInt_eq
  have hlt := BitVec.toInt_lt (x := len)
  rw [toInt_ofNat_length (by omega), Int.toNat_of_nonneg h]

section Fields

variable {b : Buffer} {n : Nat} {limit : Int}

theorem exists_byte (h : b.Holds (1 + n)) : ∃ x, b.rest = [x] ++ (b.advance 1).rest := by
  have hlen := h.le_length_rest
  obtain ⟨x, xs, hx⟩ := List.exists_cons_of_length_pos (l := b.rest) (by omega)
  have htail : (b.advance 1).rest = xs := b.rest_advance (l := [x]) hx
  exact ⟨x, by rw [htail, hx]; rfl⟩

theorem exists_int (h : b.Holds (4 + n)) :
    ∃ x : CInt, b.rest = toBytes 4 x ++ (b.advance 4).rest := by
  have hlen := h.le_length_rest
  obtain ⟨x, ys, hx⟩ := exists_toBytes (w := 32) (k := 4) b.rest (by omega) (by omega)
  have htail := b.rest_advance hx
  rw [length_toBytes] at htail
  exact ⟨x, by rw [htail, hx]⟩

/-- A string whose declared length is within the limit stands in the buffer. -/
theorem exists_string (h : b.Holds (stringSpan limit (shortAt b) + n))
    (hin : InLimit limit (shortAt b)) :
    ∃ us : List Short, us.length ≤ limit ∧
      b.rest = stringBytes us ++ (b.advance (stringSpan limit (shortAt b))).rest := by
  have hspan : stringSpan limit (shortAt b) = 2 + 2 * (shortAt b).toInt.toNat := by
    rw [stringSpan, if_pos hin]
  have hlen := h.le_length_rest
  rw [hspan] at hlen
  obtain ⟨len, tail, hrest⟩ := exists_toBytes (w := 16) (k := 2) b.rest (by omega) (by omega)
  obtain rfl : shortAt b = len := shortAt_of_rest hrest
  have htail := congrArg List.length hrest
  rw [List.length_append, length_toBytes] at htail
  have hunits : 2 * (shortAt b).toInt.toNat ≤ tail.length := by omega
  obtain ⟨us, ys, hus, rfl⟩ := exists_units hunits
  have hbytes : b.rest = stringBytes us ++ ys := by
    rw [stringBytes, hus, ofNat_toInt hin.1, List.append_assoc]
    exact hrest
  have hbehind := b.rest_advance hbytes
  rw [length_stringBytes, hus, ← hspan] at hbehind
  refine ⟨us, ?_, by rw [hbehind, hbytes]⟩
  rw [hus, Int.toNat_of_nonneg hin.1]
  exact hin.2

/-- A string on the wire declares its length. -/
theorem shortAt_of_string {us : List Short} {ys : List Byte} (h : b.rest = stringBytes us ++ ys) :
    shortAt b = BitVec.ofNat 16 us.length := by
  rw [stringBytes, List.append_assoc] at h
  exact shortAt_of_rest h

theorem inLimit_of_string {us : List Short} {ys : List Byte} (h : b.rest = stringBytes us ++ ys)
    (hlen : us.length ≤ 32767) (hlimit : us.length ≤ limit) :
    InLimit limit (shortAt b) ∧ stringSpan limit (shortAt b) = (stringBytes us).length := by
  have hin : InLimit limit (shortAt b) := by
    rw [shortAt_of_string h, InLimit, toInt_ofNat_length hlen]
    exact ⟨Int.natCast_nonneg _, hlimit⟩
  refine ⟨hin, ?_⟩
  rw [stringSpan, if_pos hin, shortAt_of_string h, toInt_ofNat_length hlen, length_stringBytes,
    Int.toNat_natCast]

end Fields

/-! ## Packets -/

section Synchronised

variable {α : Type} {read : BufferReader α} {Decodes : ClientPacket → α → Prop} {b : Buffer}
  {n : Nat}

/-- The reader is synchronised where the bytes that it takes are those of a packet. -/
theorem synchronised_of_holds (htakes : TakesAt read b n)
    (h : b.Holds n → ∃ (sent : ClientPacket) (p : α) (ys : List Byte),
      sent.WellFormed ∧ Decodes sent p ∧ b.rest = sent.body ++ ys ∧ Reads read sent.body p) :
    Synchronised read Decodes b := by
  intro p b' hok
  obtain ⟨sent, q, ys, hwf, hdecodes, hrest, hreads⟩ := h (htakes.holds_of_ok hok)
  cases hok.symm.trans (hreads b ys hrest)
  exact ⟨sent, ys, hwf, hdecodes, hrest, rfl⟩

theorem Synchronised.exists_sent (h : Synchronised read Decodes b) (htakes : TakesAt read b n)
    (hn : b.Holds n) : ∃ (sent : ClientPacket) (p : α) (ys : List Byte),
      sent.WellFormed ∧ Decodes sent p ∧ b.rest = sent.body ++ ys := by
  obtain ⟨p, hok⟩ := htakes.ok_of_holds hn
  obtain ⟨sent, ys, hwf, hdecodes, hrest, _⟩ := h p _ hok
  exact ⟨sent, p, ys, hwf, hdecodes, hrest⟩

end Synchronised

/-- Both strings of a handshake packet on the wire declare a length within their limits. -/
theorem handshake_inLimit {b : Buffer} {version : Byte} {username serverHost : List Short}
    {serverPort : CInt} {ys : List Byte} (hu : username.length ≤ 16)
    (hh : serverHost.length ≤ 255) (hrest : b.rest =
      (ClientPacket.clientProtocol version username serverHost serverPort).body ++ ys) :
    InLimit 16 (usernameLength b) ∧ InLimit 255 (serverHostLength b) := by
  simp only [ClientPacket.body, List.append_assoc] at hrest
  have hname := b.rest_advance (l := [version]) hrest
  have hu' : (username.length : Int) ≤ 16 := by omega
  have hh' : (serverHost.length : Int) ≤ 255 := by omega
  obtain ⟨hin, hspan⟩ := inLimit_of_string hname (by omega) hu'
  have hhost := (b.advance 1).rest_advance hname
  rw [← hspan] at hhost
  exact ⟨hin, (inLimit_of_string hhost (by omega) hh').1⟩

/-- A buffer with enough bytes and two accepted lengths holds a handshake packet. -/
theorem exists_handshake {b : Buffer} (hn : b.Holds (handshakeSpan b))
    (hu : InLimit 16 (usernameLength b)) (hh : InLimit 255 (serverHostLength b)) :
    ∃ version username serverHost serverPort ys, username.length ≤ 16 ∧
      serverHost.length ≤ 255 ∧ b.rest =
        (ClientPacket.clientProtocol version username serverHost serverPort).body ++ ys := by
  obtain ⟨version, hversion⟩ := exists_byte hn
  have hn₁ := ((b.holds_add 1 _).mp hn).2
  obtain ⟨username, hlen, hname⟩ : ∃ us : List Short, us.length ≤ (16 : Int) ∧
      (b.advance 1).rest = stringBytes us ++ (behindUsername b).rest := exists_string hn₁ hu
  have hn₂ : (behindUsername b).Holds (stringSpan 255 (serverHostLength b) + 4) :=
    (((b.advance 1).holds_add _ _).mp hn₁).2
  obtain ⟨serverHost, hlen', hhost⟩ := exists_string hn₂ hh
  have hn₃ := (((behindUsername b).holds_add _ _).mp hn₂).2
  obtain ⟨serverPort, hport⟩ := exists_int (n := 0) hn₃
  have hbehind := hhost.trans (congrArg (stringBytes serverHost ++ ·) hport)
  refine ⟨version, username, serverHost, serverPort,
    (((behindUsername b).advance (stringSpan 255 (serverHostLength b))).advance 4).rest,
    by omega, by omega, ?_⟩
  rw [hversion, hname, hbehind]
  simp only [ClientPacket.body, List.append_assoc]

theorem handshake_synchronised_iff (b : Buffer) :
    Synchronised ClientProtocolPacket.readData DecodesHandshake b ↔
      InLimit 16 (usernameLength b) ∧ InLimit 255 (serverHostLength b) ∨
        ¬ b.Holds (handshakeSpan b) := by
  constructor
  · intro h
    by_cases hn : b.Holds (handshakeSpan b)
    · obtain ⟨sent, p, ys, hwf, hdecodes, hrest⟩ := h.exists_sent clientProtocol_takes hn
      cases sent <;> try exact hdecodes.elim
      case clientProtocol version username serverHost serverPort =>
        exact .inl (handshake_inLimit hwf.1 hwf.2 hrest)
    · exact .inr hn
  · intro h
    apply synchronised_of_holds clientProtocol_takes
    intro hn
    obtain ⟨hu, hh⟩ := h.resolve_right (not_not.mpr hn)
    obtain ⟨version, username, serverHost, serverPort, ys, hlen, hlen', hrest⟩ :=
      exists_handshake hn hu hh
    exact ⟨.clientProtocol version username serverHost serverPort, _, ys, ⟨hlen, hlen'⟩, rfl, hrest,
      clientProtocol_reads version serverPort hlen hlen'⟩

/-- A buffer with enough bytes and an accepted length holds a client information packet. -/
theorem exists_clientInfo {b : Buffer} (hn : b.Holds (clientInfoSpan b))
    (hl : InLimit 7 (shortAt b)) :
    ∃ language renderDistance number gameDifficulty showCape ys, language.length ≤ 7 ∧
      b.rest = (ClientPacket.clientInfo language renderDistance number gameDifficulty
        showCape).body ++ ys := by
  obtain ⟨language, hlen, hlanguage⟩ := exists_string hn hl
  have hn₁ := ((b.holds_add _ _).mp hn).2
  obtain ⟨renderDistance, hrender⟩ := exists_int hn₁
  have hn₂ := ((ReadCursor.holds_add _ _ _).mp hn₁).2
  obtain ⟨number, hnumber⟩ := exists_int hn₂
  have hn₃ := ((ReadCursor.holds_add _ _ _).mp hn₂).2
  obtain ⟨gameDifficulty, hdifficulty⟩ := exists_byte hn₃
  have hn₄ := ((ReadCursor.holds_add _ _ _).mp hn₃).2
  obtain ⟨showCape, hcape⟩ := exists_byte (n := 0) hn₄
  refine ⟨language, renderDistance, number, gameDifficulty, showCape,
    (((((b.advance (stringSpan 7 (shortAt b))).advance 4).advance 4).advance 1).advance 1).rest,
    by omega, ?_⟩
  rw [hlanguage, hrender, hnumber, hdifficulty, hcape]
  simp only [ClientPacket.body, List.append_assoc]

theorem clientInfo_synchronised_iff (b : Buffer) :
    Synchronised ClientInfoPacket.readData DecodesClientInfo b ↔
      InLimit 7 (shortAt b) ∨ ¬ b.Holds (clientInfoSpan b) := by
  constructor
  · intro h
    by_cases hn : b.Holds (clientInfoSpan b)
    · obtain ⟨sent, p, ys, hwf, hdecodes, hrest⟩ := h.exists_sent clientInfo_takes hn
      cases sent <;> try exact hdecodes.elim
      case clientInfo language renderDistance number gameDifficulty showCape =>
        have hlen : language.length ≤ 7 := hwf
        simp only [ClientPacket.body, List.append_assoc] at hrest
        exact .inl (inLimit_of_string hrest (by omega) (by omega)).1
    · exact .inr hn
  · intro h
    apply synchronised_of_holds clientInfo_takes
    intro hn
    have hl := h.resolve_right (not_not.mpr hn)
    obtain ⟨language, renderDistance, number, gameDifficulty, showCape, ys, hlen, hrest⟩ :=
      exists_clientInfo hn hl
    exact ⟨.clientInfo language renderDistance number gameDifficulty showCape, _, ys, hlen, rfl,
      hrest, clientInfo_reads renderDistance number gameDifficulty showCape hlen⟩

/-- The readers decode a packet from its own bytes exactly where every length
that they take as declared is within its limit, or the buffer ends before the
bytes that they take. -/
theorem synchronised_iff (b : Buffer) :
    (Synchronised ClientProtocolPacket.readData DecodesHandshake b ↔
      InLimit 16 (usernameLength b) ∧ InLimit 255 (serverHostLength b) ∨
        ¬ b.Holds (handshakeSpan b)) ∧
    (Synchronised ClientInfoPacket.readData DecodesClientInfo b ↔
      InLimit 7 (shortAt b) ∨ ¬ b.Holds (clientInfoSpan b)) :=
  ⟨handshake_synchronised_iff b, clientInfo_synchronised_iff b⟩

/-- A client information packet with the language "abcdefgh" of eight units. -/
def longLanguage : Buffer :=
  { data := (ClientPacket.clientInfo [0x61, 0x62, 0x63, 0x64, 0x65, 0x66, 0x67, 0x68] 8 0 2
      1).body }

/-- The reader returns an empty language and takes its first five characters
for the other fields, and leaves sixteen bytes of the packet behind. -/
theorem longLanguage_not_synchronised :
    shortAt longLanguage = 8 ∧
      (∃ p b', ClientInfoPacket.readData longLanguage = .ok p b' ∧ p.language = [] ∧
        p.renderDistance = 0x00610062 ∧ b'.readPos = 12 ∧ b'.data.length = 28) ∧
      ¬ Synchronised ClientInfoPacket.readData DecodesClientInfo longLanguage := by
  refine ⟨by decide, ⟨_, _, rfl, rfl, by decide, rfl, rfl⟩, ?_⟩
  intro h
  have hcond := (clientInfo_synchronised_iff longLanguage).mp h
  revert hcond
  decide

end CarpetSrv.Packet
