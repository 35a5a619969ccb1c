import CarpetSrv.Foundation.PrefixCode
import CarpetSrv.Packet.PacketRoundTrip

/-!
# The stream of sent packets

Every sent packet begins with an id that no other class has. Behind it stand
fields of a fixed width and sequences behind their lengths. The bytes of a
packet therefore show where it ends, and a batch in one write buffer determines
the packets it was made of.

## Implementation notes

A sent packet is what its class writes: a packet of authentication data comes
with the public key of the server, and a shared-key packet writes two empty
arrays whatever it holds.
-/

namespace CarpetSrv.Packet

open Foundation Foundation.BigEndian Buffer Utils

/-- A packet with everything that it writes. -/
inductive SentPacket
  | kick (reason : UTF16String)
  | serverAuthData (publicKey verifyToken : List Byte)
  | sharedKey
  | login
  | keepAlive (milliseconds : CInt)
  | spawnPoint (x y z : CInt)
  | playerPosition (p : PlayerPositionPacket)
  deriving DecidableEq

namespace SentPacket

/-- `writeData` of the class of the packet. -/
def writeData : SentPacket → Buffer → Buffer
  | kick reason => KickPacket.writeData ⟨reason⟩
  | serverAuthData publicKey verifyToken =>
      ServerAuthDataPacket.writeData
        { getPublicKeychars := publicKey, decryptWithPrivateKey := fun _ => none } ⟨verifyToken⟩
  | sharedKey => SharedKeyPacket.writeData {}
  | login => LoginPacket.writeData {}
  | keepAlive milliseconds => KeepAlivePacket.writeData ⟨milliseconds⟩
  | spawnPoint x y z => SpawnPointPacket.writeData ⟨x, y, z⟩
  | playerPosition p => p.writeData

/-- The loop of `start_write` writes the packets of the queue into one buffer. -/
def writeAll (ps : List SentPacket) (b : Buffer) : Buffer :=
  ps.foldl (fun b p => p.writeData b) b

/-- Every sequence has a length that a short can hold. -/
def LengthsFit : SentPacket → Prop
  | kick reason => reason.length ≤ 32767
  | serverAuthData publicKey verifyToken =>
      publicKey.length ≤ 32767 ∧ verifyToken.length ≤ 32767
  | _ => True

instance : ∀ p : SentPacket, Decidable p.LengthsFit
  | kick _ => inferInstanceAs (Decidable (_ ≤ _))
  | serverAuthData _ _ => inferInstanceAs (Decidable (_ ∧ _))
  | sharedKey | login | keepAlive _ | spawnPoint _ _ _ | playerPosition _ => .isTrue trivial

def id : SentPacket → Byte
  | kick _ => 0xFF
  | serverAuthData _ _ => 0xFD
  | sharedKey => 0xFC
  | login => 0x01
  | keepAlive _ => 0x00
  | spawnPoint _ _ _ => 0x06
  | playerPosition _ => 0x0D

/-- The bytes behind the id. -/
def body : SentPacket → List Byte
  | kick reason => stringBytes reason
  | serverAuthData publicKey verifyToken =>
      stringBytes (unitsOf (literal ['-'])) ++ arrayBytes publicKey ++ arrayBytes verifyToken
  | sharedKey => arrayBytes [] ++ arrayBytes []
  | login => toBytes 4 (1 : CInt) ++ stringBytes (unitsOf (literal ['f', 'l', 'a', 't'])) ++
      [1, 0, 1, 0xFF, 20]
  | keepAlive milliseconds => toBytes 4 milliseconds
  | spawnPoint x y z => toBytes 4 x ++ toBytes 4 y ++ toBytes 4 z
  | playerPosition p => toBytes 8 p.location.x ++ toBytes 8 p.location.y ++ toBytes 8 p.stance ++
      toBytes 8 p.location.z ++ toBytes 8 p.yaw ++ toBytes 8 p.pitch ++
      [if p.onGround then 1 else 0]

def encode (p : SentPacket) : List Byte := p.id :: p.body

theorem writeData_eq (b : Buffer) (p : SentPacket) : p.writeData b = b.addDatas p.encode := by
  cases p with
  | kick reason =>
      rw [writeData, KickPacket.writeData, writeUTF16String_eq, writeByte_eq, addDatas_addDatas]
      rfl
  | serverAuthData publicKey verifyToken =>
      simp only [writeData, ServerAuthDataPacket.writeData, writeBytes_eq, writeString_eq,
        writeByte_eq, addDatas_addDatas]
      rfl
  | sharedKey =>
      simp only [writeData, SharedKeyPacket.writeData, writeBytes_eq, writeByte_eq,
        addDatas_addDatas]
      rfl
  | login =>
      simp only [writeData, LoginPacket.writeData, writeString_eq, writeInt_eq, writeByte_eq,
        addDatas_addDatas]
      rfl
  | keepAlive milliseconds =>
      rw [writeData, KeepAlivePacket.writeData, writeInt_eq, writeByte_eq, addDatas_addDatas]
      rfl
  | spawnPoint x y z =>
      simp only [writeData, SpawnPointPacket.writeData, writeInt_eq, writeByte_eq,
        addDatas_addDatas]
      rfl
  | playerPosition p =>
      simp only [writeData, PlayerPositionPacket.writeData, writeDouble_eq, writeBool,
        writeByte_eq, addDatas_addDatas]
      rfl

end SentPacket

/-! ## The fields show where they end -/

theorem word_selfDelimiting {w k : Nat} (hw : w ≤ 8 * k) :
    SelfDelimiting Set.univ (toBytes (w := w) k) := by
  apply SelfDelimiting.of_length
  · intro x _ y _ h
    rw [← ofBytes_toBytes k x hw, h, ofBytes_toBytes k y hw]
  · intro x _
    exact length_toBytes k x

/-- Lengths up to 32767 are told apart by their two bytes. -/
theorem length_selfDelimiting :
    SelfDelimiting {n : Nat | n ≤ 32767} (fun n => toBytes 2 (BitVec.ofNat 16 n)) := by
  apply SelfDelimiting.of_length
  · intro m hm n hn h
    have hshort : BitVec.ofNat 16 m = BitVec.ofNat 16 n :=
      (word_selfDelimiting (by decide)).injOn trivial trivial h
    have hint := congrArg BitVec.toInt hshort
    rw [toInt_ofNat_length hm, toInt_ofNat_length hn] at hint
    exact Int.ofNat_inj.mp hint
  · intro n _
    exact length_toBytes 2 _

theorem stringBytes_selfDelimiting :
    SelfDelimiting {us : List Short | us.length ≤ 32767} stringBytes := by
  intro us hu vs hv r r' h
  exact length_selfDelimiting.lengthPrefixed (word_selfDelimiting (by decide)) us
    ⟨hu, fun _ _ => trivial⟩ vs ⟨hv, fun _ _ => trivial⟩ r r' h

theorem arrayBytes_selfDelimiting :
    SelfDelimiting {xs : List Byte | xs.length ≤ 32767} arrayBytes :=
  .of_reads fun xs hx => readBytes_reads (fun _ => 0) xs hx

/-! ## Packets show where they end -/

namespace SentPacket

/-- The six doubles and the flag of a position. -/
theorem position_selfDelimiting :
    SelfDelimiting Set.univ fun p : PlayerPositionPacket => (playerPosition p).body := by
  rintro ⟨⟨x, y, z⟩, yaw, pitch, stance, onGround⟩ _
    ⟨⟨x', y', z'⟩, yaw', pitch', stance', onGround'⟩ _ r r' h
  simp only [body, List.append_assoc] at h
  obtain ⟨rfl, hy⟩ := word_selfDelimiting (by decide) _ trivial _ trivial _ _ h
  obtain ⟨rfl, hstance⟩ := word_selfDelimiting (by decide) _ trivial _ trivial _ _ hy
  obtain ⟨rfl, hz⟩ := word_selfDelimiting (by decide) _ trivial _ trivial _ _ hstance
  obtain ⟨rfl, hyaw⟩ := word_selfDelimiting (by decide) _ trivial _ trivial _ _ hz
  obtain ⟨rfl, hpitch⟩ := word_selfDelimiting (by decide) _ trivial _ trivial _ _ hyaw
  obtain ⟨rfl, hground⟩ := word_selfDelimiting (by decide) _ trivial _ trivial _ _ hpitch
  obtain ⟨hflag, hr⟩ := List.cons.inj hground
  cases onGround <;> cases onGround' <;> first | exact ⟨rfl, hr⟩ | cases hflag

/-- Behind the id, the fields of a packet show where the packet ends. -/
theorem encode_selfDelimiting : SelfDelimiting {p | LengthsFit p} encode := by
  intro p hp q hq r r' h
  rw [encode, encode, List.cons_append, List.cons_append] at h
  obtain ⟨hid, hbody⟩ := List.cons.inj h
  cases p <;> cases q <;> try (cases hid; done)
  case kick.kick reason reason' =>
      obtain ⟨rfl, hr⟩ := stringBytes_selfDelimiting _ hp _ hq _ _ hbody
      exact ⟨rfl, hr⟩
  case serverAuthData.serverAuthData publicKey token publicKey' token' =>
      simp only [body, List.append_assoc, List.append_cancel_left_eq] at hbody
      obtain ⟨rfl, hrest⟩ := arrayBytes_selfDelimiting _ hp.1 _ hq.1 _ _ hbody
      obtain ⟨rfl, hr⟩ := arrayBytes_selfDelimiting _ hp.2 _ hq.2 _ _ hrest
      exact ⟨rfl, hr⟩
  case sharedKey.sharedKey => exact ⟨rfl, List.append_cancel_left hbody⟩
  case login.login => exact ⟨rfl, List.append_cancel_left hbody⟩
  case keepAlive.keepAlive milliseconds milliseconds' =>
      obtain ⟨rfl, hr⟩ := word_selfDelimiting (by decide) _ trivial _ trivial _ _ hbody
      exact ⟨rfl, hr⟩
  case spawnPoint.spawnPoint x y z x' y' z' =>
      simp only [body, List.append_assoc] at hbody
      obtain ⟨rfl, hyz⟩ := word_selfDelimiting (by decide) _ trivial _ trivial _ _ hbody
      obtain ⟨rfl, hz⟩ := word_selfDelimiting (by decide) _ trivial _ trivial _ _ hyz
      obtain ⟨rfl, hr⟩ := word_selfDelimiting (by decide) _ trivial _ trivial _ _ hz
      exact ⟨rfl, hr⟩
  case playerPosition.playerPosition p q =>
      obtain ⟨rfl, hr⟩ := position_selfDelimiting p trivial q trivial _ _ hbody
      exact ⟨rfl, hr⟩

/-- The bytes of a kick packet determine its reason. -/
theorem kick_inj {us vs : UTF16String} (hu : us.length ≤ 32767) (hv : vs.length ≤ 32767)
    (h : (KickPacket.writeData ⟨us⟩ {}).data = (KickPacket.writeData ⟨vs⟩ {}).data) : us = vs := by
  have hencode : (kick us).encode = (kick vs).encode := by
    have hus := congrArg ReadCursor.data (writeData_eq {} (kick us))
    have hvs := congrArg ReadCursor.data (writeData_eq {} (kick vs))
    exact hus.symm.trans (h.trans hvs)
  have hkick : kick us = kick vs := encode_selfDelimiting.injOn hu hv hencode
  exact SentPacket.kick.inj hkick

/-- A batch in one write buffer determines its packets, and the bytes of no
packet are a proper prefix of those of another one. -/
theorem sent_packets_uniquely_decodable {ps qs : List SentPacket} (hp : ∀ p ∈ ps, p.LengthsFit)
    (hq : ∀ q ∈ qs, q.LengthsFit) (b : Buffer) :
    ((writeAll ps b).data = (writeAll qs b).data → ps = qs) ∧
      ∀ p q : SentPacket, p.LengthsFit → q.LengthsFit →
        (p.writeData {}).data <+: (q.writeData {}).data → p = q := by
  constructor
  · intro h
    rw [writeAll, writeAll, foldl_addDatas b writeData_eq, foldl_addDatas b writeData_eq] at h
    have hbytes : ps.flatMap encode = qs.flatMap encode := List.append_cancel_left h
    exact encode_selfDelimiting.eq_of_flatMap (fun p _ => List.cons_ne_nil _ _) hp hq hbytes
  · intro p q hpf hqf hpre
    rw [writeData_eq, writeData_eq] at hpre
    exact encode_selfDelimiting.eq_of_isPrefix hpf hqf hpre

theorem sent_packets_uniquely_decodable_login :
    (writeAll [login, spawnPoint 0 0 0] {}).data ≠
      (writeAll [login, spawnPoint 0 0 0, keepAlive 0] {}).data := by
  intro h
  have hshort : ∀ p ∈ [login, spawnPoint 0 0 0], p.LengthsFit := by decide
  have hlong : ∀ p ∈ [login, spawnPoint 0 0 0, keepAlive 0], p.LengthsFit := by decide
  have heq := (sent_packets_uniquely_decodable hshort hlong {}).1 h
  exact absurd heq (by decide)

end SentPacket

end CarpetSrv.Packet
