import CarpetSrv.Packet.Packets
import Mathlib.Data.Fin.VecNotation

/-!
# Client packets on the wire

A client packet is given by the values that stand on the wire, before any
narrowing: strings are 16-bit units and a bool is its byte. `encode` is its
byte image, and the reader of its class recovers the decoded fields from it.

## Implementation notes

The format of each id is what the `readData` of its class reads. A string is
well formed when it is within the limit that the reader passes, and a byte
array when its length is a non-negative short.
-/

namespace CarpetSrv.Packet

open Foundation Foundation.ExceptState Foundation.BigEndian Buffer

/-- A client packet with the values it carries on the wire. The byte arrays of
the shared-key packet are the encrypted ones. -/
inductive ClientPacket
  | serverPing (ping : Byte)
  | clientProtocol (protocolVersion : Byte) (username serverHost : List Short) (serverPort : CInt)
  | sharedKey (encryptedSharedSecret encryptedVerifyToken : List Byte)
  | clientInfo (language : List Short) (renderDistance number : CInt)
      (gameDifficulty showCape : Byte)
  | keepAlive (milliseconds : CInt)
  | playerPosition (x y z stance : Double) (onGround : Byte)
  deriving DecidableEq

namespace ClientPacket

def id : ClientPacket → Byte
  | serverPing _ => 0xFE
  | clientProtocol .. => 0x02
  | sharedKey .. => 0xFC
  | clientInfo .. => 0xCC
  | keepAlive _ => 0x00
  | playerPosition .. => 0x0B

/-- The bytes behind the id. -/
def body : ClientPacket → List Byte
  | serverPing ping => [ping]
  | clientProtocol version username serverHost serverPort =>
      [version] ++ (stringBytes username ++ (stringBytes serverHost ++ toBytes 4 serverPort))
  | sharedKey secret token => arrayBytes secret ++ arrayBytes token
  | clientInfo language renderDistance number gameDifficulty showCape =>
      stringBytes language ++ (toBytes 4 renderDistance ++ (toBytes 4 number ++
        ([gameDifficulty] ++ [showCape])))
  | keepAlive milliseconds => toBytes 4 milliseconds
  | playerPosition x y z stance onGround =>
      toBytes 8 x ++ (toBytes 8 y ++ (toBytes 8 z ++ (toBytes 8 stance ++ [onGround])))

def encode (p : ClientPacket) : List Byte := p.id :: p.body

/-- Strings are within their limits and byte arrays have a length that a short can hold. -/
def WellFormed : ClientPacket → Prop
  | serverPing _ => True
  | clientProtocol _ username serverHost _ => username.length ≤ 16 ∧ serverHost.length ≤ 255
  | sharedKey secret token => secret.length ≤ 32767 ∧ token.length ≤ 32767
  | clientInfo language _ _ _ _ => language.length ≤ 7
  | keepAlive _ => True
  | playerPosition .. => True

instance : ∀ p : ClientPacket, Decidable p.WellFormed
  | serverPing _ | keepAlive _ | playerPosition .. => .isTrue trivial
  | clientProtocol .. | sharedKey .. => inferInstanceAs (Decidable (_ ∧ _))
  | clientInfo .. => inferInstanceAs (Decidable (_ ≤ _))

theorem length_encode (p : ClientPacket) : p.encode.length = p.body.length + 1 :=
  List.length_cons

theorem body_ne_nil (p : ClientPacket) : p.body ≠ [] := by
  intro h
  have hl := congrArg List.length h
  cases p <;> simp [body] at hl

end ClientPacket

/-! ## The packet objects that the readers build -/

def serverPingPacket (ping : Byte) : ServerPingPacket := ⟨ping⟩

def clientProtocolPacket (version : Byte) (username serverHost : List Short) (serverPort : CInt) :
    ClientProtocolPacket :=
  ⟨version.setWidth 32, username.map (BitVec.setWidth 8), serverHost.map (BitVec.setWidth 8),
    serverPort⟩

def clientInfoPacket (language : List Short) (renderDistance number : CInt)
    (gameDifficulty showCape : Byte) : ClientInfoPacket :=
  ⟨language.map (BitVec.setWidth 8), renderDistance,
    if number.setWidth 8 &&& (7 : Byte) ≠ 0 then 1 else 0, number.setWidth 8 &&& (8 : Byte) == 8,
    gameDifficulty.setWidth 32, showCape != 0⟩

/-- Each argument of `set` gets the coordinate at the place of its turn. -/
def playerPositionPacket (order : Equiv.Perm (Fin 3)) (x y z stance : Double) (onGround : Byte) :
    PlayerPositionPacket :=
  { location := callThree Location.mk fun i => ![x, y, z] (order.symm i)
    stance := stance
    onGround := onGround != 0 }

theorem playerPositionPacket_eq_iff {order order' : Equiv.Perm (Fin 3)}
    {x y z stance x' y' z' stance' : Double} {onGround onGround' : Byte} :
    playerPositionPacket order x y z stance onGround =
        playerPositionPacket order' x' y' z' stance' onGround' ↔
      (∀ i, ![x, y, z] (order.symm i) = ![x', y', z'] (order'.symm i)) ∧
        stance = stance' ∧ (onGround != 0) = (onGround' != 0) := by
  simp only [playerPositionPacket, PlayerPositionPacket.mk.injEq, callThree, Location.mk.injEq,
    Fin.forall_fin_succ, Fin.forall_fin_zero, Fin.succ_zero_eq_one, Fin.succ_one_eq_two]
  tauto

/-! ## Readers of whole packets -/

theorem serverPing_reads (ping : Byte) :
    Reads ServerPingPacket.readData (ClientPacket.serverPing ping).body
      (serverPingPacket ping) := by
  intro b ys h
  have hlt := b.readPos_lt_of_rest h
  have hread := (readByte_reads ping).map ServerPingPacket.mk b ys h
  rw [ServerPingPacket.readData, bind_of_ok (get_apply b), ite_run, if_pos (by omega)]
  exact hread

theorem clientProtocol_reads (version : Byte) {username serverHost : List Short} (serverPort : CInt)
    (hu : username.length ≤ 16) (hh : serverHost.length ≤ 255) :
    Reads ClientProtocolPacket.readData
      (ClientPacket.clientProtocol version username serverHost serverPort).body
      (clientProtocolPacket version username serverHost serverPort) := by
  apply Reads.bind (readByte_reads version)
  apply Reads.bind (readString_reads (n := 16) username hu (by decide))
  apply Reads.bind (readString_reads (n := 255) serverHost hh (by decide))
  exact (readInt_reads serverPort).map _

theorem clientInfo_reads {language : List Short} (renderDistance number : CInt)
    (gameDifficulty showCape : Byte) (hl : language.length ≤ 7) :
    Reads ClientInfoPacket.readData
      (ClientPacket.clientInfo language renderDistance number gameDifficulty showCape).body
      (clientInfoPacket language renderDistance number gameDifficulty showCape) := by
  apply Reads.bind (readString_reads (n := 7) language hl (by decide))
  apply Reads.bind (readInt_reads renderDistance)
  apply Reads.bind (readInt_reads number)
  apply Reads.bind (readByte_reads gameDifficulty)
  exact (readBool_reads showCape).map _

theorem keepAlive_reads (milliseconds : CInt) :
    Reads KeepAlivePacket.readData (ClientPacket.keepAlive milliseconds).body ⟨milliseconds⟩ :=
  (readInt_reads milliseconds).map _

theorem playerPosition_reads (order : Equiv.Perm (Fin 3)) (x y z stance : Double)
    (onGround : Byte) :
    Reads (PlayerPositionPacket.readData order)
      (ClientPacket.playerPosition x y z stance onGround).body
      (playerPositionPacket order x y z stance onGround) := by
  have hbody : (ClientPacket.playerPosition x y z stance onGround).body =
      (List.ofFn fun i => toBytes 8 (![x, y, z] i)).flatten ++
        (toBytes 8 stance ++ [onGround]) := by
    simp [ClientPacket.body, List.ofFn_succ]
  rw [hbody]
  apply Reads.bind (evaluate_reads order fun i => readDouble_reads (![x, y, z] i))
  apply Reads.bind (readDouble_reads stance)
  exact (readBool_reads onGround).map _

theorem decrypt_reads {keypair : KeyPair} {encrypted decrypted : List Byte}
    (h : keypair.decryptWithPrivateKey encrypted = some decrypted) :
    Reads (SharedKeyPacket.decryptWithPrivateKey keypair encrypted) [] decrypted := by
  rw [SharedKeyPacket.decryptWithPrivateKey, h]
  exact .pure _

theorem sharedKey_reads {keypair : KeyPair} (beyond : Nat → Byte)
    {encSecret encToken secret token : List Byte} (hs : encSecret.length ≤ 32767)
    (ht : encToken.length ≤ 32767) (hds : keypair.decryptWithPrivateKey encSecret = some secret)
    (hdt : keypair.decryptWithPrivateKey encToken = some token) :
    Reads (SharedKeyPacket.readData keypair beyond) (ClientPacket.sharedKey encSecret encToken).body
      ⟨secret, token⟩ := by
  apply Reads.bind (readBytes_reads beyond encSecret hs)
  rw [← List.append_nil (arrayBytes encToken)]
  apply Reads.bind (readBytes_reads beyond encToken ht)
  apply Reads.bind (l := []) (r := []) (decrypt_reads hds)
  exact (decrypt_reads hdt).map _

/-! ## Readers of whole packets only advance -/

theorem serverPing_advances : Advances ServerPingPacket.readData := by
  apply moves_get
  intro b
  split_ifs
  · exact (readByte_within.advances.bind fun _ => .pure _) b
  · exact ⟨0, b.advance_zero.symm⟩

theorem clientProtocol_advances : Advances ClientProtocolPacket.readData :=
  readByte_within.advances.bind fun _ => (readString_within 16).advances.bind fun _ =>
    (readString_within 255).advances.bind fun _ => readInt_within.advances.bind fun _ => .pure _

theorem clientInfo_advances : Advances ClientInfoPacket.readData :=
  (readString_within 7).advances.bind fun _ => readInt_within.advances.bind fun _ =>
    readInt_within.advances.bind fun _ => readByte_within.advances.bind fun _ =>
      readBool_within.advances.bind fun _ => .pure _

theorem playerPosition_advances (order : Equiv.Perm (Fin 3)) :
    Advances (PlayerPositionPacket.readData order) := by
  have hthree : Advances (evaluate order fun _ => readDouble) := by
    rw [evaluate_three]
    exact readDouble_within.advances.bind fun _ => readDouble_within.advances.bind fun _ =>
      readDouble_within.advances.bind fun _ => .pure _
  exact hthree.bind fun _ => readDouble_within.advances.bind fun _ =>
    readBool_within.advances.bind fun _ => .pure _

theorem decrypt_advances (keypair : KeyPair) (encrypted : List Byte) :
    Advances (SharedKeyPacket.decryptWithPrivateKey keypair encrypted) := by
  unfold SharedKeyPacket.decryptWithPrivateKey
  split
  · exact .pure _
  · exact .throw _

theorem sharedKey_advances (keypair : KeyPair) (beyond : Nat → Byte) :
    Advances (SharedKeyPacket.readData keypair beyond) :=
  (readBytes_advances beyond).bind fun _ => (readBytes_advances beyond).bind fun _ =>
    (decrypt_advances keypair _).bind fun _ => (decrypt_advances keypair _).bind fun _ => .pure _

end CarpetSrv.Packet
