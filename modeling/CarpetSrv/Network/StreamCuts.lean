import CarpetSrv.Network.ChunkedReading
import CarpetSrv.Network.RunInvariant

/-!
# Cuts of a byte stream

Which packets a fresh connection dispatches depends on where the stream is
cut. Byte by byte, it dispatches the first id with zeros for all values, and
nothing else. This file gives this cut and the ones that show more.
-/

namespace CarpetSrv.Network.Connection

open Foundation Foundation.ExceptState Foundation.BigEndian Packet Utils Buffer

variable {κ : Type}

/-- The ids in `PACKETS_HANDLERS`. -/
def packetIds : List Byte := [0xFE, 0x02, 0xFC, 0xCC, 0x00, 0x0B]

theorem lookup_eq_none_iff_not_mem {env : Environment κ} {ambient : Ambient} {id : Byte} :
    (packetsHandlers env ambient).lookup id = none ↔ id ∉ packetIds := by
  have hids : packetIds = (packetsHandlers env ambient).map Prod.fst := rfl
  rw [List.lookup_eq_none_iff, hids, List.mem_map]
  constructor
  · rintro h ⟨entry, hentry, rfl⟩
    exact bne_iff_ne.mp (h entry hentry) rfl
  · intro h entry hentry
    exact bne_iff_ne.mpr fun heq => h ⟨entry, hentry, heq.symm⟩

/-! ## The packet that stands in the buffer after the first id -/

/-- The packet of the same kind with zeros for all values. -/
def blank : ClientPacket → ClientPacket
  | .serverPing _ => .serverPing 0
  | .clientProtocol .. => .clientProtocol 0 [] [] 0
  | .sharedKey .. => .sharedKey [] []
  | .clientInfo .. => .clientInfo [] 0 0 0 0
  | .keepAlive _ => .keepAlive 0
  | .playerPosition .. => .playerPosition 0 0 0 0 0

section Blank

variable {env : Environment κ} {ambient : Ambient} {status : Status} {p : ClientPacket}

theorem blank_id (p : ClientPacket) : (blank p).id = p.id := by
  cases p <;> rfl

theorem blank_wellFormed (p : ClientPacket) : (blank p).WellFormed := by
  cases p <;> simp [blank, ClientPacket.WellFormed]

theorem blank_accepts (hid : p.id ≠ 0xFC) (h : Accepts env ambient status p) :
    Accepts env ambient status (blank p) := by
  cases p with
  | sharedKey _ _ => exact absurd rfl hid
  | _ => exact h

theorem front_blank (p : ClientPacket) :
    ∃ n < 40, front (blank p) = p.id :: List.replicate n 0 := by
  cases p with
  | serverPing _ => exact ⟨1, by decide, rfl⟩
  | clientProtocol _ _ _ _ => exact ⟨9, by decide, rfl⟩
  | sharedKey _ _ => exact ⟨4, by decide, rfl⟩
  | clientInfo _ _ _ _ _ => exact ⟨12, by decide, rfl⟩
  | keepAlive _ => exact ⟨0, by decide, rfl⟩
  | playerPosition _ _ _ _ _ => exact ⟨33, by decide, rfl⟩

end Blank

section FirstRead

variable {env : Environment κ} {player : Player} {now : Int} {a : Ambient} {p : ClientPacket}

/-- The first byte dispatches its packet with zeros for all values. -/
theorem first_byte (player : Player) (now : Int) (hrand : a.rand.isSome = true) (hid : p.id ≠ 0xFC)
    (hacc : Accepts env a .handshake p) :
    ∃ t, Reading env (opened player now) [([p.id], a)] t ∧ Listening t ∧
      Progress env [blank p] (opened player now) t ∧
      t.readBuffer.readPos = (front (blank p)).length := by
  obtain ⟨n, hn, hfront⟩ := front_blank p
  have hlen : (front (blank p)).length = n + 1 := by
    rw [hfront, List.length_cons, List.length_replicate]
  have hsplit : List.replicate (readBufferSize - 1) (0 : Byte) =
      List.replicate n 0 ++ List.replicate (readBufferSize - 1 - n) 0 := by
    rw [List.replicate_append_replicate, Nat.add_sub_cancel' (by unfold readBufferSize; omega)]
  have hrest : (receive [p.id] (opened player now : Connection κ)).readBuffer.rest =
      front (blank p) ++ List.replicate (readBufferSize - 1 - n) 0 := by
    rw [rest_opened, hfront, List.length_singleton, hsplit]
    rfl
  have hfits : [p.id].length ≤ (opened player now : Connection κ).regionLength := by
    rw [regionLength_opened]
    exact (by decide : 1 ≤ readBufferSize)
  obtain ⟨t, ht, hwt, hp, hpos⟩ := readChunk_calls env (c := ([p.id], a)) listening_opened rfl
    (blank_wellFormed p) (by rwa [blank_id]) (blank_accepts hid hacc) hfits hrest
    (by rw [opened_readBuffer]; exact Nat.one_pos) (by rw [hlen]; exact Nat.le_add_left ..)
  refine ⟨t, .cons ⟨rfl, nofun, hrand⟩ ht (.refl t), hwt, hp, ?_⟩
  rw [hpos, opened_readBuffer, Nat.zero_add]
  apply nextPosition_of_lt
  rw [hlen]
  unfold readBufferSize
  omega

/-- Byte by byte, the first id is dispatched and nothing else. -/
theorem exists_reading_bytewise (player : Player) (now : Int) (hrand : a.rand.isSome = true)
    (hid : p.id ≠ 0xFC)
    (hacc : Accepts env a .handshake p) (bytes : List Byte) :
    ∃ t, Reading env (opened player now) (bytewise a (p.id :: bytes)) t ∧ Listening t ∧
      Progress env [blank p] (opened player now) t ∧
      t.readBuffer.readPos = (front (blank p)).length := by
  obtain ⟨m, hm, hwm, hp, hpos⟩ := first_byte player now hrand hid hacc
  have hpositive : 0 < m.readBuffer.readPos := by
    rw [hpos]
    exact Nat.zero_lt_succ _
  obtain ⟨t, ht, hwt, hpt, heq⟩ :=
    exists_reading_quiet env hrand bytes hwm hpositive hp.cipher
  exact ⟨t, hm.append ht, hwt, hp.trans hpt, heq.trans hpos⟩

end FirstRead

/-! ## Cuts that show more than the first id -/

theorem exists_encode_eq_front (p : ClientPacket) : ∃ back, p.encode = front p ++ back := by
  cases p with
  | keepAlive milliseconds => exact ⟨toBytes 4 milliseconds, rfl⟩
  | _ => exact ⟨[], (List.append_nil _).symm⟩

theorem front_eq_encode {p : ClientPacket} (h : p.id ≠ 0x00) : front p = p.encode := by
  cases p with
  | keepAlive _ => exact absurd rfl h
  | _ => rfl

theorem length_encode_le {p : ClientPacket} (hwf : p.WellFormed) (hid : p.id ≠ 0xFC) :
    p.encode.length ≤ 600 := by
  rw [p.length_encode]
  cases p with
  | sharedKey _ _ => exact absurd rfl hid
  | clientProtocol _ username serverHost _ =>
      have hu : username.length ≤ 16 := hwf.1
      have hh : serverHost.length ≤ 255 := hwf.2
      simp only [ClientPacket.body, List.length_append, length_stringBytes, length_toBytes,
        List.length_singleton]
      omega
  | clientInfo language _ _ _ _ =>
      have hl : language.length ≤ 7 := hwf
      simp only [ClientPacket.body, List.length_append, length_stringBytes, length_toBytes,
        List.length_singleton]
      omega
  | _ => simp [ClientPacket.body]

theorem prefix_of_appended {base : List Processing} {s t : Connection κ} {added : List Processing}
    (h : base <+: processing s) (ht : processing t = processing s ++ added) :
    base <+: processing t := by
  rw [ht]
  exact h.trans (List.prefix_append ..)

/-- Handlers only add to what has been processed. -/
theorem processing_grows (env : Environment κ) (base : List Processing) :
    HandlerClosed env AnyPacket fun s => base <+: processing s where
  readBuffer _ h := h
  dispatched _ h := prefix_of_appended h (observe_emit _ _ _)
  pinged _ _ h :=
    prefix_of_appended h ((observe_pinged env _ (fun _ _ => rfl) _).trans (List.append_assoc ..))
  unseeded _ _ _ h := by
    rwa [processing_versionChecked]
  greeted {_ p s token} _ _ _ h := by
    refine prefix_of_appended (s := versionChecked env p s) ?_
      ((observe_greeted env s (fun _ _ => rfl) token p).trans (List.append_assoc ..))
    rwa [processing_versionChecked]
  badKey {_ p s} _ _ _ h := by
    rwa [show processing (tokenChecked p s) = processing s from observe_tokenChecked s rfl p]
  loggedIn {_ p s} _ _ _ h := by
    have hl := observe_loggedIn env s (f := Processing.ofEffect) (fun _ _ => rfl)
      (cipherOf env p.sharedSecret) p
    rw [observe_tokenChecked s rfl] at hl
    simp only [List.append_assoc] at hl
    exact prefix_of_appended h hl
  informed {_ _ s} _ h :=
    prefix_of_appended (s := usePlayer _ s) (by rwa [processing_usePlayer]) (observe_emit _ _ _)
  keptAlive _ h := prefix_of_appended h (observe_emit _ _ _)
  positioned {_ _ s} _ h :=
    prefix_of_appended (s := usePlayer _ s) (by rwa [processing_usePlayer]) (observe_emit _ _ _)

/-- Whatever the handler of an id does, its call has been recorded. -/
theorem dispatched_prefix {env : Environment κ} {ambient : Ambient} {s : Connection κ} {id : Byte}
    {size : Nat} (hmem : id ∈ packetIds)
    (hid : s.readBuffer.data[s.readBuffer.readPos]? = some id) (h : s.readBuffer.readPos < size) :
    processing s ++ [.dispatched id] <+: processing (processPackets env ambient size s) := by
  have hclosed := processing_grows env (processing s ++ [.dispatched id])
  have hentered : processing s ++ [.dispatched id] <+: processing (entered id s) := by
    rw [show processing (entered id s) = _ from observe_emit _ _ _]
    exact List.prefix_rfl
  obtain ⟨handler, hl⟩ := Option.ne_none_iff_exists'.mp
    fun hnone => lookup_eq_none_iff_not_mem.mp hnone hmem
  have hafter := hclosed.handles (handles_of_lookup (s := entered id s) hl) (fun _ _ => trivial)
    hentered
  rw [processPackets_unfold, if_pos h, processRound_of_lookup hid hl]
  cases hr : handler (entered id s) with
  | ok u t =>
      rw [hr] at hafter
      exact hclosed.processPackets (eachPacket_anyPacket env ambient size t) hafter
  | error e t =>
      rw [hr] at hafter
      exact hafter

section Cuts

variable {env : Environment κ} {player : Player} {now : Int} {a : Ambient} {p q : ClientPacket}

theorem length_front_le (p : ClientPacket) : (front p).length ≤ p.encode.length := by
  obtain ⟨back, hback⟩ := exists_encode_eq_front p
  rw [hback, List.length_append]
  exact Nat.le_add_right ..

/-- A read that ends in a state with progress `ps`, and single bytes behind it. -/
theorem exists_reading_then_bytewise {s m : Connection κ} {c : Chunk} {ps : List ClientPacket}
    (hrand : a.rand.isSome = true) (hr : Readable s c) (hm : readChunk env s c = some m)
    (hw : Listening m) (hp : Progress env ps s m) (hpos : 0 < m.readBuffer.readPos)
    (bytes : List Byte) :
    ∃ t, Reading env s (c :: bytewise a bytes) t ∧ Progress env ps s t := by
  obtain ⟨t, ht, _, hpt, _⟩ := exists_reading_quiet env hrand bytes hw hpos hp.cipher
  have htrans := hp.trans hpt
  rw [List.append_nil] at htrans
  exact ⟨t, .cons hr hm ht, htrans⟩

/-- The first packet in one chunk shows its values. -/
theorem exists_reading_first (player : Player) (now : Int) (hrand : a.rand.isSome = true)
    (hwf : p.WellFormed)
    (hid : p.id ≠ 0xFC) (hkeep : p.id ≠ 0x00) (hacc : Accepts env a .handshake p)
    (bytes : List Byte) :
    ∃ cs t, bytesOf cs = p.encode ++ bytes ∧ Reading env (opened player now) cs t ∧
      Progress env [p] (opened player now) t := by
  have hfront := front_eq_encode hkeep
  have hle := length_encode_le hwf hid
  have hpositive : 0 < p.encode.length := List.length_pos_iff.mpr (List.cons_ne_nil _ _)
  have hrest : (receive p.encode (opened player now : Connection κ)).readBuffer.rest =
      front p ++ List.replicate (readBufferSize - p.encode.length) 0 := by
    rw [hfront]
    exact rest_opened p.encode
  have hfits : p.encode.length ≤ (opened player now : Connection κ).regionLength := by
    rw [regionLength_opened]
    exact Nat.le_trans hle (by decide)
  obtain ⟨m, hm, hw, hp, hpos⟩ :=
    readChunk_calls env (c := (p.encode, a)) listening_opened rfl hwf hid
    hacc hfits hrest (by rw [opened_readBuffer]; exact hpositive)
    (by rw [hfront]; exact Nat.le_add_left ..)
  have hmpos : 0 < m.readBuffer.readPos := by
    rw [hpos, opened_readBuffer, Nat.zero_add, hfront,
      nextPosition_of_lt (Nat.lt_of_le_of_lt hle (by decide))]
    exact hpositive
  obtain ⟨t, ht, hpt⟩ := exists_reading_then_bytewise hrand
    (c := (p.encode, a)) ⟨rfl, List.cons_ne_nil _ _, hrand⟩ hm hw hp hmpos bytes
  refine ⟨(p.encode, a) :: bytewise a bytes, t, ?_, ht, hpt⟩
  exact congrArg (p.encode ++ ·) (bytesOf_bytewise bytes)

/-- Two packets in one chunk, the second up to what is read of it, are both dispatched. -/
theorem exists_reading_two (player : Player) (now : Int) (hrand : a.rand.isSome = true)
    (hwf : p.WellFormed)
    (hid : p.id ≠ 0xFC) (hkeep : p.id ≠ 0x00) (hacc : Accepts env a .handshake p)
    (hwfq : q.WellFormed) (hidq : q.id ≠ 0xFC)
    (haccq : Accepts env a (statusAfter p .handshake) q) (bytes : List Byte) :
    ∃ cs t, bytesOf cs = p.encode ++ (q.encode ++ bytes) ∧ Reading env (opened player now) cs t ∧
      Progress env [p, q] (opened player now) t := by
  have hfront := front_eq_encode hkeep
  have hle := length_encode_le hwf hid
  have hleq := Nat.le_trans (length_front_le q) (length_encode_le hwfq hidq)
  obtain ⟨back, hback⟩ := exists_encode_eq_front q
  have hlen : (p.encode ++ front q).length = (front p).length + (front q).length := by
    rw [hfront, List.length_append]
  have hqpos : 0 < (front q).length := Nat.zero_lt_succ _
  have hrest : (receive (p.encode ++ front q) (opened player now : Connection κ)).readBuffer.rest =
      front p ++ (front q ++ List.replicate (readBufferSize - (p.encode ++ front q).length) 0) := by
    rw [rest_opened, hfront, List.append_assoc]
  have hzero : (opened player now : Connection κ).readBuffer.readPos = 0 := by
    rw [opened_readBuffer]
  have hbound : (p.encode ++ front q).length < readBufferSize := by
    unfold readBufferSize
    rw [List.length_append]
    omega
  have hfits : (p.encode ++ front q).length ≤ (opened player now : Connection κ).regionLength := by
    rw [regionLength_opened]
    exact Nat.le_of_lt hbound
  obtain ⟨m, hm, hw, hp, hpos⟩ := readChunk_calls_two env (c := (p.encode ++ front q, a))
    listening_opened rfl hwf hid hacc hwfq hidq haccq hfits hrest
    (by dsimp only; omega) (by dsimp only; omega)
  have hmpos : 0 < m.readBuffer.readPos := by
    rw [hpos, hzero, Nat.zero_add, ← hlen, nextPosition_of_lt hbound]
    omega
  obtain ⟨t, ht, hpt⟩ := exists_reading_then_bytewise hrand (c := (p.encode ++ front q, a))
    ⟨rfl, List.cons_ne_nil _ _, hrand⟩ hm hw hp hmpos (back ++ bytes)
  refine ⟨(p.encode ++ front q, a) :: bytewise a (back ++ bytes), t, ?_, ht, hpt⟩
  apply (congrArg ((p.encode ++ front q) ++ ·) (bytesOf_bytewise (back ++ bytes))).trans
  rw [hback]
  simp only [List.append_assoc]

/-- Behind a keep-alive that came byte by byte, a packet is dispatched when
its chunk has at least two bytes. -/
theorem exists_reading_behind (player : Player) (now : Int) (hrand : a.rand.isSome = true)
    (hid : p.id = 0x00)
    (hwfq : q.WellFormed) (hidq : q.id ≠ 0xFC) (haccq : Accepts env a .handshake q)
    (bytes : List Byte) :
    ∃ cs t, bytesOf cs = p.encode ++ (q.encode ++ bytes) ∧ Reading env (opened player now) cs t ∧
      Progress env [blank p, q] (opened player now) t := by
  cases p with
  | keepAlive milliseconds =>
      obtain ⟨m, hm, hw, hp, hpos⟩ := exists_reading_bytewise player now
        (p := .keepAlive milliseconds) hrand nofun (by trivial : Accepts env a _ _)
        (toBytes 4 milliseconds)
      have hone : m.readBuffer.readPos = 1 := hpos
      have hstatus : m.status = .handshake := hp.status
      obtain ⟨back, hback⟩ := exists_encode_eq_front q
      -- The chunk holds what is read of the packet, and its second byte at least.
      obtain ⟨k, hk, hk₁, hk₂, hkle⟩ : ∃ k, (front q).length ≤ k ∧ 1 < k ∧
          k ≤ 1 + (front q).length ∧ k ≤ q.encode.length := by
        have hbody := List.length_pos_iff.mpr q.body_ne_nil
        have hfront : 0 < (front q).length := Nat.zero_lt_succ _
        have hle := length_front_le q
        refine ⟨max 2 (front q).length, by omega, by omega, by omega, ?_⟩
        rw [q.length_encode] at hle ⊢
        omega
      have hsize : (q.encode.take k).length = k := List.length_take_of_le hkle
      have hle := length_encode_le hwfq hidq
      have hfits : (q.encode.take k).length ≤ m.regionLength := by
        rw [hsize, regionLength, hw.posted.1, hone]
        unfold readBufferSize
        omega
      have htake : q.encode.take k = front q ++ back.take (k - (front q).length) := by
        rw [hback, List.take_append, List.take_of_length_le hk]
      have hrest := rest_receive hw.posted (q.encode.take k)
      rw [htake, List.append_assoc, ← htake] at hrest
      obtain ⟨u, hu, hwu, hpu, hposu⟩ := readChunk_calls env (c := (q.encode.take k, a)) hw
        hp.cipher hwfq hidq (hstatus ▸ haccq) hfits hrest (by dsimp only; omega)
        (by dsimp only; omega)
      have hupos : 0 < u.readBuffer.readPos := by
        rw [hposu, nextPosition_of_lt (by unfold readBufferSize; omega)]
        omega
      have hne : q.encode.take k ≠ [] := List.ne_nil_of_length_pos (by omega)
      obtain ⟨t, ht, hpt⟩ := exists_reading_then_bytewise hrand (c := (q.encode.take k, a))
        ⟨hp.cipher, hne, hrand⟩ hu hwu hpu hupos (q.encode.drop k ++ bytes)
      refine ⟨_, t, ?_, hm.append ht, hp.trans hpt⟩
      rw [bytesOf, List.flatMap_append, List.flatMap_cons]
      refine (congrArg₂ (· ++ ·) (bytesOf_bytewise _)
        (congrArg (_ ++ ·) (bytesOf_bytewise _))).trans ?_
      rw [← List.append_assoc (q.encode.take k), List.take_append_drop]
      rfl
  | _ => cases hid

/-- A byte of a keep-alive that is an id, and not the last byte, is
dispatched when it comes first in the last chunk. -/
theorem exists_reading_keepAlive (env : Environment κ) (player : Player) (now : Int)
    {milliseconds : CInt} {x : Byte} (hrand : a.rand.isSome = true)
    (hx : x ∈ (toBytes 4 milliseconds).dropLast) (hmem : x ∈ packetIds) :
    ∃ cs t, bytesOf cs = (ClientPacket.keepAlive milliseconds).encode ∧
      Reading env (opened player now) cs t ∧
      callOf env (.keepAlive 0) ++ [.dispatched x] <+: processing t := by
  obtain ⟨pre, tail, hbody, htail⟩ :
      ∃ pre tail, toBytes 4 milliseconds = pre ++ x :: tail ∧ tail ≠ [] := by
    obtain ⟨pre, post, hsplit⟩ := List.append_of_mem hx
    have hne : toBytes 4 milliseconds ≠ [] := List.cons_ne_nil _ _
    refine ⟨pre, post ++ [(toBytes 4 milliseconds).getLast hne], ?_,
      List.append_ne_nil_of_right_ne_nil _ (List.cons_ne_nil _ _)⟩
    rw [← List.cons_append, ← List.append_assoc, ← hsplit, List.dropLast_append_getLast]
  have hlen := congrArg List.length hbody
  rw [length_toBytes, List.length_append, List.length_cons] at hlen
  have htailpos := List.length_pos_iff.mpr htail
  obtain ⟨m, hm, hw, hp, hpos⟩ := exists_reading_bytewise player now
    (p := .keepAlive milliseconds) hrand nofun (by trivial : Accepts env a _ _) pre
  have hone : m.readBuffer.readPos = 1 := hpos
  have hfits : (x :: tail).length ≤ m.regionLength := by
    rw [List.length_cons, regionLength, hw.posted.1, hone]
    unfold readBufferSize
    omega
  have hid := ReadCursor.getElem?_of_rest _ (rest_receive hw.posted (x :: tail))
  have hdispatched : processing m ++ [.dispatched x] <+:
      processing (processPackets env a (x :: tail).length (receive (x :: tail) m)) := by
    rw [← (SameProgress.receive (x :: tail) m).processing]
    apply dispatched_prefix hmem hid
    rw [receive_readPos, hone, List.length_cons]
    omega
  have hread := readChunk_of_fits env (c := (x :: tail, a)) hw hfits
  refine ⟨_, _, ?_, hm.append (.cons ⟨hp.cipher, List.cons_ne_nil _ _, hrand⟩ hread (.refl _)), ?_⟩
  · rw [bytesOf, List.flatMap_append]
    apply (congrArg₂ (· ++ ·) (bytesOf_bytewise _) (List.append_nil _)).trans
    exact congrArg ((0x00 : Byte) :: ·) hbody.symm
  · rw [handleRead_of_no_cipher hp.cipher, (SameProgress.startRead _).processing]
    rw [hp.processing, processing_opened, List.nil_append, List.flatMap_singleton] at hdispatched
    exact hdispatched

end Cuts

end CarpetSrv.Network.Connection
