import CarpetSrv.Foundation.PaddedPrefix
import CarpetSrv.Network.StreamCuts

/-!
# Segmentation of the byte stream

TCP may cut the bytes of a client anywhere. What a connection does with a
stream depends on the cuts, except for streams that hold nothing the cuts can
change: a single packet that reads like the zeros that fill up the vector.

## Implementation notes

For a single packet, the cuts differ in how much of it has arrived when its id
is dispatched. The reader finds zeros in the place of what has not arrived.
-/

namespace CarpetSrv.Network.Connection

open Foundation Foundation.BigEndian Packet Utils Buffer

variable {κ : Type}

/-- All ways of cutting the stream lead to the same packets with the same
values, the same status and the same player. -/
def SegmentationIndependent (env : Environment κ) (s : Connection κ) (stream : List Byte) : Prop :=
  ∀ cs ds t u, bytesOf cs = stream → bytesOf ds = stream → Reading env s cs t →
    Reading env s ds u → processing u = processing t ∧ u.status = t.status ∧ u.player = t.player

/-- The client speaks the protocol version of the server. -/
def SpeaksVersion : ClientPacket → Prop
  | .clientProtocol version _ _ _ => version = 51
  | _ => True

/-- A packet that every cut shows alike: what is read of its body is zero, and
no byte of a keep-alive that may be taken for an id is one. -/
def Insensitive : ClientPacket → Prop
  | .serverPing ping => ping = 0
  | .clientInfo language renderDistance number gameDifficulty showCape =>
      language = [] ∧ renderDistance = 0 ∧ number.setWidth 8 &&& (15 : Byte) = 0 ∧
        gameDifficulty = 0 ∧ showCape = 0
  | .keepAlive milliseconds => ∀ byte ∈ (toBytes 4 milliseconds).dropLast, byte ∉ packetIds
  | .playerPosition x y z stance onGround => x = 0 ∧ y = 0 ∧ z = 0 ∧ stance = 0 ∧ onGround = 0
  | _ => False

/-- Every packet is accepted by its handler in the status in which it comes,
and a handshake has the protocol version of the server. -/
def AcceptedFrom (env : Environment κ) : Status → List ClientPacket → Prop
  | _, [] => True
  | status, p :: ps =>
      (∀ ambient : Ambient, ambient.rand.isSome = true → Accepts env ambient status p) ∧
        SpeaksVersion p ∧ AcceptedFrom env (statusAfter p status) ps

/-! ## Packets that read like zeros -/

/-- The flags that the client-info packet takes from its number. -/
theorem chatFlags_eq_zero_iff (b : Byte) :
    ((if b &&& (7 : Byte) ≠ 0 then 1 else 0) = (0 : CInt) ∧ (b &&& (8 : Byte) == 8) = false) ↔
      b &&& (15 : Byte) = 0 := by
  revert b
  decide +kernel

theorem clientInfoPacket_eq_blank_iff (language : List Short) (renderDistance number : CInt)
    (gameDifficulty showCape : Byte) :
    clientInfoPacket language renderDistance number gameDifficulty showCape =
        clientInfoPacket [] 0 0 0 0 ↔
      Insensitive (.clientInfo language renderDistance number gameDifficulty showCape) := by
  have hwiden : gameDifficulty.setWidth 32 = 0 ↔ gameDifficulty = 0 := by
    revert gameDifficulty
    decide +kernel
  have hflags := chatFlags_eq_zero_iff (number.setWidth 8)
  have hblank : clientInfoPacket [] 0 0 0 0 = ⟨[], 0, 0, false, 0, false⟩ := rfl
  rw [hblank, clientInfoPacket, ClientInfoPacket.mk.injEq, List.map_eq_nil_iff, hwiden,
    bne_eq_false_iff_eq, Insensitive, ← hflags]
  tauto

theorem insensitive_of_decoded {env : Environment κ} {p : ClientPacket} (hid : p.id ≠ 0xFC)
    (hkeep : p.id ≠ 0x00) (hv : SpeaksVersion p) (h : decoded env p = decoded env (blank p)) :
    Insensitive p := by
  cases p with
  | serverPing ping =>
      cases h
      rfl
  | clientProtocol version _ _ _ =>
      obtain rfl : version = 51 := hv
      injection h with h
      have hversion : (51 : Byte).setWidth 32 = (0 : Byte).setWidth 32 :=
        congrArg ClientProtocolPacket.protocolVersion h
      exact absurd hversion (by decide)
  | sharedKey _ _ => exact absurd rfl hid
  | clientInfo language renderDistance number gameDifficulty showCape =>
      injection h with h
      exact (clientInfoPacket_eq_blank_iff ..).mp h
  | keepAlive _ => exact absurd rfl hkeep
  | playerPosition x y z stance onGround =>
      injection h with h
      obtain ⟨hlocation, hstance, hground⟩ := playerPositionPacket_eq_iff.mp h
      have hplace : ∀ k, ![x, y, z] k = ![0, 0, 0] k := by
        intro k
        have hturn := hlocation (env.argumentOrder k)
        rwa [Equiv.symm_apply_apply] at hturn
      exact ⟨hplace 0, hplace 1, hplace 2, hstance, by simpa using hground⟩

/-- The handler cannot tell the two packets apart. -/
structure Alike (p q : ClientPacket) : Prop where
  wellFormed : q.WellFormed
  id : q.id = p.id
  accepts : ∀ {κ : Type} (env : Environment κ) (a : Ambient) (status : Status),
    Accepts env a status p → Accepts env a status q
  decoded : ∀ {κ : Type} (env : Environment κ), decoded env q = decoded env p
  status : statusAfter q = statusAfter p
  player : ∀ {κ : Type} (env : Environment κ), playerAfter env q = playerAfter env p

theorem Alike.refl {p : ClientPacket} (h : p.WellFormed) : Alike p p :=
  ⟨h, rfl, fun _ _ _ h => h, fun _ => rfl, rfl, fun _ => rfl⟩

theorem Alike.progress {env : Environment κ} {s t : Connection κ} {p q : ClientPacket}
    (h : Alike p q) (hp : Progress env [q] s t) : Progress env [p] s t where
  processing := by
    rw [hp.processing, List.flatMap_singleton, List.flatMap_singleton, callOf, callOf, h.id,
      h.decoded]
  status := by
    rw [hp.status, List.foldl_cons, List.foldl_cons, h.status]
  player := by
    rw [hp.player]
    simp only [List.foldl_cons, List.foldl_nil, h.player]
  cipher := hp.cipher

theorem alike_of_clientInfo {number number' : CInt}
    (h : Insensitive (.clientInfo [] 0 number 0 0))
    (h' : Insensitive (.clientInfo [] 0 number' 0 0)) :
    Alike (.clientInfo [] 0 number 0 0) (.clientInfo [] 0 number' 0 0) := by
  have heq : clientInfoPacket [] 0 number' 0 0 = clientInfoPacket [] 0 number 0 0 :=
    ((clientInfoPacket_eq_blank_iff ..).mpr h').trans
      ((clientInfoPacket_eq_blank_iff ..).mpr h).symm
  refine ⟨Nat.zero_le _, rfl, fun _ _ _ _ => trivial, fun _ => ?_, rfl, fun _ => ?_⟩
  · rw [Connection.decoded, Connection.decoded, heq]
  · rw [playerAfter, playerAfter, heq]

/-- A packet that reads like zeros still does when its last bytes are missing. -/
theorem exists_alike {p : ClientPacket} (h : Insensitive p) (hkeep : p.id ≠ 0x00) (k : Nat) :
    ∃ q, padded 0 (k + 1) p.encode = q.encode ∧ Alike p q := by
  cases p with
  | serverPing ping =>
      obtain rfl : ping = 0 := h
      exact ⟨_, congrArg (_ :: ·) (padded_replicate 0 k 1), .refl trivial⟩
  | clientProtocol _ _ _ _ => exact absurd h id
  | sharedKey _ _ => exact absurd h id
  | clientInfo language renderDistance number gameDifficulty showCape =>
      obtain ⟨rfl, rfl, hnumber, rfl, rfl⟩ := h
      -- The number with the bytes that have arrived.
      obtain ⟨number', hbytes⟩ : ∃ number' : CInt,
          toBytes 4 number' = padded 0 (k - 6) (toBytes 4 number) := by
        have hround := toBytes_ofBytes (w := 32) (padded 0 (k - 6) (toBytes 4 number)) (by simp)
        rw [length_padded, length_toBytes] at hround
        exact ⟨_, hround⟩
      have hnumber' : number'.setWidth 8 &&& (15 : Byte) = 0 := by
        have hlast := getLast?_padded 0 (k - 6) (getLast?_toBytes 3 number)
        rw [← hbytes, getLast?_toBytes] at hlast
        rcases hlast with hlast | hlast
        · rw [Option.some.inj hlast]
          exact hnumber
        · rw [Option.some.inj hlast]
          rfl
      refine ⟨.clientInfo [] 0 number' 0 0, ?_, alike_of_clientInfo ⟨rfl, rfl, hnumber, rfl, rfl⟩
        ⟨rfl, rfl, hnumber', rfl, rfl⟩⟩
      have hsplit : ∀ n : CInt, (ClientPacket.clientInfo [] 0 n 0 0).encode =
          0xCC :: (List.replicate 6 0 ++ (toBytes 4 n ++ List.replicate 2 0)) := fun _ => rfl
      rw [hsplit, hsplit, padded_succ_cons, padded_append, padded_append, padded_replicate,
        padded_replicate, List.length_replicate, hbytes]
  | keepAlive _ => exact absurd rfl hkeep
  | playerPosition x y z stance onGround =>
      obtain ⟨rfl, rfl, rfl, rfl, rfl⟩ := h
      exact ⟨_, congrArg (_ :: ·) (padded_replicate 0 k 33), .refl trivial⟩

section Insensitive

variable {env : Environment κ} {a : Ambient} {player : Player} {now : Int} {p : ClientPacket}
  {s t : Connection κ} {cs : List Chunk}

theorem insensitive_id (h : Insensitive p) : p.id ≠ 0xFC := by
  cases p with
  | sharedKey _ _ => exact absurd h id
  | _ => nofun

theorem insensitive_accepts (env : Environment κ) (a : Ambient) (h : Insensitive p) :
    Accepts env a .handshake p := by
  cases p with
  | serverPing _ => rfl
  | clientProtocol _ _ _ _ => exact absurd h id
  | sharedKey _ _ => exact absurd h id
  | _ => trivial

/-- The first chunk shows the packet, and nothing is looked at behind it. -/
theorem reading_insensitive (h : Insensitive p) (hkeep : p.id ≠ 0x00)
    (run : Reading env (opened player now) cs t) (hcs : bytesOf cs = p.encode) :
    Progress env [p] (opened player now) t := by
  cases run with
  | refl => exact absurd hcs.symm (List.cons_ne_nil _ _)
  | cons hr hstep tail =>
      rename_i m c cs
      have hsplit : c.1 ++ bytesOf cs = p.encode := hcs
      have hlen := congrArg List.length hsplit
      rw [List.length_append] at hlen
      obtain ⟨k, hk⟩ : ∃ k, c.1.length = k + 1 :=
        Nat.exists_eq_succ_of_ne_zero (mt List.length_eq_zero_iff.mp hr.2.1)
      obtain ⟨q, hq, halike⟩ := exists_alike h hkeep k
      have hfront : front q = q.encode := front_eq_encode (by rwa [halike.id])
      have hqlen : q.encode.length = p.encode.length := by
        rw [← hq, length_padded]
      have hidq : q.id ≠ 0xFC := by
        rw [halike.id]
        exact insensitive_id h
      have hle := length_encode_le halike.wellFormed hidq
      -- What has not arrived is zero, like what is read of it.
      have hrest : (receive c.1 (opened player now : Connection κ)).readBuffer.rest =
          front q ++ List.replicate (readBufferSize - p.encode.length) 0 := by
        have htake : p.encode.take (k + 1) = c.1 := by
          rw [← hsplit, ← hk, List.take_left]
        rw [rest_opened, hfront, ← hq, ← take_append_replicate, htake, List.append_assoc,
          List.replicate_append_replicate, hk]
        unfold readBufferSize
        congr 2
        omega
      obtain ⟨u, hu, hw, hp, hpos⟩ := readChunk_calls env listening_opened rfl
        halike.wellFormed hidq (halike.accepts env c.2 _ (insensitive_accepts env c.2 h))
        (fits_of_readChunk hstep) hrest (by rw [opened_readBuffer]; dsimp only; omega)
        (by rw [opened_readBuffer, hfront]; dsimp only; omega)
      cases hu.symm.trans hstep
      rw [opened_readBuffer, hfront, Nat.zero_add, nextPosition_of_lt
        (Nat.lt_of_le_of_lt hle (by decide))] at hpos
      exact (halike.progress hp).trans (reading_quiet tail hw (by omega) hp.cipher)

/-- The loop stops behind a byte that is no id. -/
theorem processPackets_unknown (env : Environment κ) {id : Byte} {size : Nat} (hid : id ∉ packetIds)
    (hdata : s.readBuffer.data[s.readBuffer.readPos]? = some id) (h : s.readBuffer.readPos < size) :
    processPackets env a size s = { s with readBuffer := s.readBuffer.advance 1 } := by
  have hround : processRound env a s =
      .ok false { s with readBuffer := s.readBuffer.advance 1 } := by
    rw [processRound_apply, hdata]
    simp only [lookup_eq_none_iff_not_mem.mpr hid]
  rw [processPackets_unfold, if_pos h, hround]

/-- Bytes that are no ids are dispatched in no cut. The last one is never
looked at, since its chunk would have to be longer than the read position. -/
theorem reading_unknown (run : Reading env s cs t) (hw : Listening s) (hc : s.cipher = none)
    (hpos : 0 < s.readBuffer.readPos)
    (hbound : s.readBuffer.readPos + (bytesOf cs).length < readBufferSize)
    (hids : ∀ x ∈ (bytesOf cs).dropLast, x ∉ packetIds) : Progress env [] s t := by
  induction run with
  | refl s => exact .of_same hc ⟨rfl, rfl, rfl, rfl⟩
  | cons hr hstep _ ih =>
      rename_i s m t c cs _
      have hsplit : bytesOf (c :: cs) = c.1 ++ bytesOf cs := rfl
      have hids' : ∀ x ∈ (bytesOf cs).dropLast, x ∉ packetIds := by
        intro x hx
        apply hids x
        have hne : bytesOf cs ≠ [] := by
          rintro heq
          rw [heq] at hx
          cases hx
        rw [hsplit, List.dropLast_append_of_ne_nil hne]
        exact List.mem_append_right _ hx
      rw [hsplit, List.length_append] at hbound
      by_cases hl : c.1.length ≤ s.readBuffer.readPos
      · obtain ⟨u, hu, hwu, hp, hposu⟩ :=
          readChunk_quiet env hw hc (fits_of_readChunk hstep) hl
        cases hu.symm.trans hstep
        exact hp.trans (ih hwu hp.cipher (by omega) (by omega) hids')
      · obtain ⟨x, y, rest, hchunk⟩ : ∃ x y rest, c.1 = x :: y :: rest := by
          rcases hc₁ : c.1 with _ | ⟨x, _ | ⟨y, rest⟩⟩
          · exact absurd hc₁ hr.2.1
          · rw [hc₁, List.length_singleton] at hl
            exact absurd hpos (by omega)
          · exact ⟨x, y, rest, rfl⟩
        have hx : x ∉ packetIds := by
          apply hids x
          rw [hsplit, hchunk]
          exact List.mem_cons_self
        have hdata : (receive c.1 s).readBuffer.data[s.readBuffer.readPos]? = some x := by
          have hrest := rest_receive hw.posted c.1
          rw [hchunk] at hrest ⊢
          exact ReadCursor.getElem?_of_rest _ hrest
        have hloop := processPackets_unknown env (a := c.2) (s := receive c.1 s) hx hdata
          (Nat.not_le.mp hl)
        obtain ⟨u, hu, hwu, hp, hposu⟩ := readChunk_progress env [] (n := 1) hw hc
          (fits_of_readChunk hstep) (by rw [hloop]; exact .of_same hc ⟨rfl, rfl, rfl, rfl⟩)
          (by rw [hloop])
        cases hu.symm.trans hstep
        rw [nextPosition_of_lt (by omega)] at hposu
        exact hp.trans (ih hwu hp.cipher (by omega) (by omega) hids')

/-- The first chunk of a keep-alive dispatches it and stops at the next byte. -/
theorem readChunk_keepAlive {c : Chunk} {milliseconds : CInt} {more : List Byte}
    (h : Insensitive (.keepAlive milliseconds)) (hne : c.1 ≠ [])
    (hsplit : c.1 ++ more = (ClientPacket.keepAlive milliseconds).encode)
    (hstep : readChunk env (opened player now) c = some t) :
    Listening t ∧ Progress env [.keepAlive milliseconds] (opened player now) t ∧
      0 < t.readBuffer.readPos ∧ t.readBuffer.readPos ≤ 2 := by
  obtain ⟨w, hchunk⟩ : ∃ w, c.1 = 0x00 :: w := by
    rcases hc : c.1 with _ | ⟨x, w⟩
    · exact absurd hc hne
    · rw [hc] at hsplit
      have hx : x = 0x00 := List.head_eq_of_cons_eq hsplit
      exact ⟨w, by rw [hx]⟩
  have hfits := fits_of_readChunk hstep
  have hrest : (receive c.1 (opened player now : Connection κ)).readBuffer.rest =
      front (.keepAlive milliseconds) ++
        (w ++ List.replicate (readBufferSize - c.1.length) 0) := by
    rw [rest_opened, hchunk]
    rfl
  have hzero : (opened player now : Connection κ).readBuffer.readPos = 0 := by
    rw [opened_readBuffer]
  have hone : nextPosition 1 = 1 := nextPosition_of_lt (by decide)
  have htwo : nextPosition 2 = 2 := nextPosition_of_lt (by decide)
  rcases w with _ | ⟨x, w⟩
  · obtain ⟨u, hu, hw, hp, hpos⟩ := readChunk_calls env (p := .keepAlive milliseconds)
      listening_opened rfl trivial nofun trivial hfits hrest
      (by rw [hzero, hchunk]; exact Nat.one_pos) (by rw [hzero, hchunk]; exact Nat.le_refl _)
    cases hu.symm.trans hstep
    rw [hzero, show (front (.keepAlive milliseconds)).length = 1 from rfl, Nat.zero_add, hone]
      at hpos
    exact ⟨hw, hp, by omega, by omega⟩
  · obtain ⟨u, hround, hcalled⟩ := round_calls env c.2
      (s := receive c.1 (opened player now)) (p := .keepAlive milliseconds) trivial trivial hrest
    have hx : x ∉ packetIds := by
      have hbody : x :: (w ++ more) = toBytes 4 milliseconds := by
        rw [hchunk] at hsplit
        exact (List.cons_eq_cons.mp hsplit).2
      apply h x
      rw [← hbody, List.dropLast_cons_of_ne_nil]
      · exact List.mem_cons_self
      · intro hnil
        have hlen := congrArg List.length hbody
        rw [List.length_cons, hnil, length_toBytes] at hlen
        cases hlen
    have hupos : u.readBuffer.readPos = 1 := by
      rw [hcalled.readBuffer, ReadCursor.advance_readPos, receive_readPos, hzero]
      rfl
    have hdata : u.readBuffer.data[u.readBuffer.readPos]? = some x := by
      have hurest := ReadCursor.rest_advance _ hrest
      rw [← hcalled.readBuffer] at hurest
      exact ReadCursor.getElem?_of_rest _ hurest
    have hsize : 1 < c.1.length := by
      rw [hchunk, List.length_cons, List.length_cons]
      omega
    have hloop : processPackets env c.2 c.1.length (receive c.1 (opened player now)) =
        { u with readBuffer := u.readBuffer.advance 1 } := by
      rw [processPackets_of_round (by rw [receive_readPos, hzero]; omega) hround]
      exact processPackets_unknown env hx hdata (by omega)
    have hp : Progress env [.keepAlive milliseconds] (receive c.1 (opened player now)) u :=
      .of_called nofun rfl hcalled
    obtain ⟨v, hv, hw, hpv, hpos⟩ := readChunk_progress env [_] (n := 2) listening_opened rfl
      hfits (by
        rw [hloop]
        exact hp.trans (.of_same hp.cipher ⟨rfl, rfl, rfl, rfl⟩))
      (by
        rw [hloop, hcalled.readBuffer]
        exact ReadCursor.advance_advance ..)
    cases hv.symm.trans hstep
    rw [hzero, Nat.zero_add, htwo] at hpos
    exact ⟨hw, hpv, by omega, by omega⟩

theorem reading_insensitive_keepAlive {milliseconds : CInt}
    (h : Insensitive (.keepAlive milliseconds)) (run : Reading env (opened player now) cs t)
    (hcs : bytesOf cs = (ClientPacket.keepAlive milliseconds).encode) :
    Progress env [.keepAlive milliseconds] (opened player now) t := by
  cases run with
  | refl => exact absurd hcs.symm (List.cons_ne_nil _ _)
  | cons hr hstep tail =>
      rename_i m c cs
      have hsplit : c.1 ++ bytesOf cs = (ClientPacket.keepAlive milliseconds).encode := hcs
      obtain ⟨hw, hp, hpos, hle⟩ := readChunk_keepAlive h hr.2.1 hsplit hstep
      obtain ⟨x, w, hchunk⟩ := List.exists_cons_of_ne_nil hr.2.1
      have hbody : w ++ bytesOf cs = toBytes 4 milliseconds := by
        rw [hchunk] at hsplit
        exact (List.cons_eq_cons.mp hsplit).2
      have hlen := congrArg List.length hbody
      rw [List.length_append, length_toBytes] at hlen
      refine hp.trans (reading_unknown tail hw hp.cipher hpos ?_ fun x hx => h x ?_)
      · unfold readBufferSize
        omega
      · have hne : bytesOf cs ≠ [] := by
          rintro heq
          rw [heq] at hx
          cases hx
        rw [← hbody, List.dropLast_append_of_ne_nil hne]
        exact List.mem_append_right _ hx

end Insensitive

theorem accepted_id {env : Environment κ} {a : Ambient} {status : Status} {p : ClientPacket}
    (h : Accepts env a status p) (hst : status ≠ .login) : p.id ≠ 0xFC := by
  cases p with
  | sharedKey _ _ => exact absurd h.1 hst
  | _ => nofun

theorem insensitive_statusAfter {p : ClientPacket} (h : Insensitive p) :
    statusAfter p .handshake ≠ .login := by
  cases p with
  | clientProtocol _ _ _ _ => exact absurd h id
  | _ => nofun

section Streams

variable {env : Environment κ} {player : Player} {now : Int} {ps : List ClientPacket}

/-- When all cuts agree, each of them does what the first byte alone does. -/
theorem processing_of_independent {p : ClientPacket} (stream : List Byte)
    (hind : SegmentationIndependent env (opened player now) (p.id :: stream)) (hid : p.id ≠ 0xFC)
    (hacc : Accepts env chainAmbient .handshake p) {cs : List Chunk} {u : Connection κ}
    (hcs : bytesOf cs = p.id :: stream) (hu : Reading env (opened player now) cs u) :
    processing u = callOf env (blank p) := by
  obtain ⟨t, ht, _, hpt, _⟩ :=
    exists_reading_bytewise player now (a := chainAmbient) rfl hid hacc stream
  rw [(hind _ cs t u (bytesOf_bytewise _) hcs ht hu).1, hpt.processing, processing_opened,
    List.nil_append, List.flatMap_singleton]

/-- A stream whose cuts agree has no second packet, and its packet reads like zeros. -/
theorem insensitive_of_independent {p : ClientPacket} (hwf : ∀ q ∈ p :: ps, q.WellFormed)
    (hacc : AcceptedFrom env .handshake (p :: ps))
    (hind : SegmentationIndependent env (opened player now)
      ((p :: ps).flatMap ClientPacket.encode)) : ps = [] ∧ Insensitive p := by
  obtain ⟨haccp, hversion, haccps⟩ := hacc
  have hrand : chainAmbient.rand.isSome = true := rfl
  have hwfp := hwf p List.mem_cons_self
  have hidp := accepted_id (haccp chainAmbient hrand) nofun
  have hall : ∀ {cs u}, bytesOf cs = p.encode ++ ps.flatMap ClientPacket.encode →
      Reading env (opened player now) cs u → processing u = callOf env (blank p) :=
    processing_of_independent (p.body ++ ps.flatMap ClientPacket.encode) hind hidp
      (haccp _ hrand)
  have hone : ∀ {q r u}, Progress env [q, r] (opened player now) u →
      processing u ≠ callOf env (blank p) := by
    intro q r u hpu heq
    rw [hpu.processing] at heq
    exact absurd (congrArg List.length heq) (by decide : ¬ 4 = 2)
  by_cases hkeep : p.id = 0x00
  · cases p with
    | keepAlive milliseconds =>
        rcases ps with _ | ⟨q, ps⟩
        · refine ⟨rfl, ?_⟩
          intro x hx hmem
          obtain ⟨cs, u, hcs, hu, hprefix⟩ := exists_reading_keepAlive env player now hrand hx
            hmem
          rw [hall (hcs.trans (List.append_nil _).symm) hu] at hprefix
          exact absurd hprefix.length_le (by decide : ¬ 3 ≤ 2)
        · have haccq := haccps.1 chainAmbient hrand
          obtain ⟨cs, u, hcs, hu, hpu⟩ := exists_reading_behind player now
            hrand hkeep (hwf q (List.mem_cons_of_mem _ List.mem_cons_self))
            (accepted_id haccq nofun) haccq (ps.flatMap ClientPacket.encode)
          exact absurd (hall hcs hu) (hone hpu)
    | _ => cases hkeep
  · obtain ⟨cs, u, hcs, hu, hpu⟩ := exists_reading_first player now hrand
      hwfp hidp hkeep (haccp _ hrand) (ps.flatMap ClientPacket.encode)
    have hcall := hpu.processing
    rw [hall hcs hu, processing_opened, List.nil_append, List.flatMap_singleton] at hcall
    have hdecoded : decoded env p = decoded env (blank p) :=
      (Processing.handled.inj (List.cons_eq_cons.mp (List.cons_eq_cons.mp hcall).2).1).symm
    have hins := insensitive_of_decoded hidp hkeep hversion hdecoded
    rcases ps with _ | ⟨q, ps⟩
    · exact ⟨rfl, hins⟩
    · have haccq := haccps.1 chainAmbient hrand
      obtain ⟨cs, u, hcs, hu, hpu⟩ := exists_reading_two player now hrand
        hwfp hidp hkeep (haccp _ hrand) (hwf q (List.mem_cons_of_mem _ List.mem_cons_self))
        (accepted_id haccq (insensitive_statusAfter hins)) haccq (ps.flatMap ClientPacket.encode)
      exact absurd (hall hcs hu) (hone hpu)

/-- Every cut of a packet that reads like zeros makes the same progress. -/
theorem progress_of_insensitive {p : ClientPacket} {cs : List Chunk} {t : Connection κ}
    (h : Insensitive p) (run : Reading env (opened player now) cs t)
    (hcs : bytesOf cs = p.encode) : Progress env [p] (opened player now) t := by
  by_cases hkeep : p.id = 0x00
  · cases p with
    | keepAlive milliseconds => exact reading_insensitive_keepAlive h run hcs
    | _ => cases hkeep
  · exact reading_insensitive h hkeep run hcs

end Streams

/-- All cuts of an accepted stream agree exactly when it is empty or one
packet that every cut shows alike. -/
theorem segmentationIndependent_iff {env : Environment κ} {player : Player} {now : Int}
    {ps : List ClientPacket} (hwf : ∀ p ∈ ps, p.WellFormed)
    (hacc : AcceptedFrom env .handshake ps) :
    SegmentationIndependent env (opened player now) (ps.flatMap ClientPacket.encode) ↔
      ps = [] ∨ ∃ p, ps = [p] ∧ Insensitive p := by
  constructor
  · intro hind
    rcases ps with _ | ⟨p, ps⟩
    · exact .inl rfl
    · obtain ⟨rfl, hins⟩ := insensitive_of_independent hwf hacc hind
      exact .inr ⟨p, rfl, hins⟩
  · rintro (rfl | ⟨p, rfl, hins⟩) cs ds t u hcs hds ht hu
    · have hempty : ∀ {cs u}, bytesOf cs = [] → Reading env (opened player now) cs u →
          Progress env [] (opened player now) u := fun hcs run =>
        reading_quiet run listening_opened (by rw [hcs]; exact Nat.zero_le _) rfl
      exact (hempty hcs ht).agree (hempty hds hu)
    · rw [List.flatMap_singleton] at hcs hds
      exact (progress_of_insensitive hins ht hcs).agree (progress_of_insensitive hins hu hds)

/-- A position packet with zeros for all values may be cut anywhere. -/
theorem segmentationIndependent_iff_zeros :
    SegmentationIndependent chainEnvironment (opened {} 0)
      ([ClientPacket.playerPosition 0 0 0 0 0].flatMap ClientPacket.encode) :=
  have hacc : AcceptedFrom chainEnvironment .handshake [.playerPosition 0 0 0 0 0] :=
    ⟨fun _ _ => trivial, trivial, trivial⟩
  (segmentationIndependent_iff (by decide) hacc).mpr (.inr ⟨_, rfl, rfl, rfl, rfl, rfl, rfl⟩)

/-- A position packet in one piece, and cut behind its id. -/
theorem position_depends_on_cut : ∃ t u : Connection Byte,
    Reading chainEnvironment (opened {} 0)
        [((ClientPacket.playerPosition 1 2 3 4 1).encode, chainAmbient)] t ∧
      Reading chainEnvironment (opened {} 0)
        [([0x0B], chainAmbient),
          ((ClientPacket.playerPosition 1 2 3 4 1).body, chainAmbient)] u ∧
      processing t = callOf chainEnvironment (.playerPosition 1 2 3 4 1) ∧
      processing u = callOf chainEnvironment (.playerPosition 0 0 0 0 0) ∧
      ¬ SegmentationIndependent chainEnvironment (opened {} 0)
        (ClientPacket.playerPosition 1 2 3 4 1).encode := by
  obtain ⟨t, ht, hone⟩ := exists_guardedRun (readChunk chainEnvironment) Readable (opened {} 0)
      [((ClientPacket.playerPosition 1 2 3 4 1).encode, chainAmbient)]
      (fun t => processing t = callOf chainEnvironment (.playerPosition 1 2 3 4 1))
    (by decide +kernel)
  obtain ⟨u, hu, hzero⟩ := exists_guardedRun (readChunk chainEnvironment) Readable (opened {} 0)
      [([0x0B], chainAmbient), ((ClientPacket.playerPosition 1 2 3 4 1).body, chainAmbient)]
      (fun u => processing u = callOf chainEnvironment (.playerPosition 0 0 0 0 0))
    (by decide +kernel)
  refine ⟨t, u, ht, hu, hone, hzero, ?_⟩
  intro h
  have hsame := (h _ _ t u rfl rfl ht hu).1
  rw [hone, hzero] at hsame
  revert hsame
  decide

end CarpetSrv.Network.Connection
