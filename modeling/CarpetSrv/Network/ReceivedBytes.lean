import CarpetSrv.Network.ReadBuffer
import CarpetSrv.Packet.FieldArrival

/-!
# The bytes that the handlers consume

`start_read` fills the vector of the read buffer up with zeros, and a read
completion fills a part of it. The readers compare with the size of the vector,
so a packet that has not arrived completely is read on into the zeros, or into
bytes of an earlier completion that were passed over.

## Implementation notes

A connection is followed with the origin of each position of the vector, which
is the number of its byte among all the bytes that arrived. The indices that the
read buffer records are then the numbers of the bytes that were consumed.
-/

namespace CarpetSrv.Network

open Foundation Foundation.ExceptState Foundation.BoundedLoop Packet Utils Connection Buffer

variable {κ : Type}

namespace Connection

/-- The fields that the handler of a packet id reads in a status. -/
def format (status : Status) (id : Byte) : List FieldType :=
  if id = 0xFE ∧ status = .handshake then [.byte]
  else if id = 0x02 ∧ status = .handshake then [.byte, .string 16, .string 255, .int]
  else if id = 0xFC ∧ status = .login then [.bytes, .bytes]
  else if id = 0xCC then [.string 7, .int, .int, .byte, .bool]
  else if id = 0x0B then [.double, .double, .double, .double, .bool]
  else []

/-- The packet that the next round of the loop reads has arrived before the frontier. -/
def PacketArrived (frontier : Nat) (s : Connection κ) : Prop :=
  ∀ id ∈ s.readBuffer.data[s.readBuffer.readPos]?,
    ArrivedAll frontier (format s.status id) (s.readBuffer.advance 1)

instance (frontier : Nat) (s : Connection κ) : Decidable (PacketArrived frontier s) :=
  inferInstanceAs (Decidable (∀ id ∈ _, _))

/-- Every packet that one call of `process_packets` reads has arrived. -/
def EachArrived (env : Environment κ) (ambient : Ambient) (frontier size : Nat)
    (s : Connection κ) : Prop :=
  Meets (fun s => s.readBuffer.readPos < size) (processRound env ambient)
    (PacketArrived frontier) size s

instance (env : Environment κ) (ambient : Ambient) (frontier size : Nat) (s : Connection κ) :
    Decidable (EachArrived env ambient frontier size s) :=
  inferInstanceAs (Decidable (Meets _ _ _ _ _))

/-! ## Handlers on arrived packets -/

section Handlers

variable {env : Environment κ} {ambient : Ambient} {s : Connection κ} {frontier : Nat}
  {id : Byte}

/-- The handler of an arrived packet takes no byte behind the frontier. -/
theorem handler_stays {handler : ConnM κ Unit}
    (hl : (packetsHandlers env ambient).lookup id = some handler)
    (hb : s.readBuffer.readPos ≤ frontier)
    (h : ArrivedAll frontier (format s.status id) s.readBuffer) :
    (after handler s).readBuffer.readPos ≤ frontier := by
  cases tableEntry_of_lookup hl with
  | serverPing =>
      rw [handleServerPingPacket_readBuffer]
      split_ifs with hs
      · have hin : ArrivedAll frontier [.byte] s.readBuffer := by simpa [format, hs] using h
        exact (serverPing_confined hb hin).readPos_le
      · exact hb
  | handshake =>
      rw [handleHandshake_readBuffer]
      split_ifs with hs
      · have hin : ArrivedAll frontier [.byte, .string 16, .string 255, .int] s.readBuffer := by
          simpa [format, hs] using h
        exact (clientProtocol_confined hb hin).readPos_le
      · exact hb
  | sharedKey =>
      rw [handleSharedKeyPacket_readBuffer]
      split_ifs with hs
      · have hin : ArrivedAll frontier [.bytes, .bytes] s.readBuffer := by
          simpa [format, hs] using h
        exact (sharedKey_confined hb env.keypair ambient.beyond hin).readPos_le
      · exact hb
  | clientInfo =>
      rw [handleClientInfo_readBuffer]
      have hin : ArrivedAll frontier [.string 7, .int, .int, .byte, .bool] s.readBuffer := by
        simpa [format] using h
      exact (clientInfo_confined hb hin).readPos_le
  | keepAlive => exact hb
  | position =>
      rw [handlePositionPacket_readBuffer]
      have hin : ArrivedAll frontier [.double, .double, .double, .double, .bool] s.readBuffer := by
        simpa [format] using h
      exact (playerPosition_confined hb _ hin).readPos_le

theorem round_stays (hb : s.readBuffer.readPos < frontier) (h : PacketArrived frontier s) :
    (after (processRound env ambient) s).readBuffer.readPos ≤ frontier := by
  rw [after, processRound_apply]
  cases hd : s.readBuffer.data[s.readBuffer.readPos]? with
  | none => exact Nat.le_of_lt hb
  | some id =>
      dsimp only
      cases hl : (packetsHandlers env ambient).lookup id with
      | none => exact hb
      | some handler =>
          have hentered : ArrivedAll frontier (format (entered id s).status id)
              (entered id s).readBuffer := h id hd
          have hstays := handler_stays hl hb hentered
          rw [after] at hstays
          dsimp only
          cases hr : handler (entered id s) with
          | ok u s' =>
              rw [hr] at hstays
              exact hstays
          | error e s' =>
              rw [hr] at hstays
              exact hstays

/-- On arrived packets `process_packets` takes the next bytes in order, and none
behind the frontier. -/
theorem processPackets_reads {size : Nat} (hsize : size ≤ frontier)
    (hb : s.readBuffer.readPos ≤ frontier) (h : EachArrived env ambient frontier size s) :
    ∃ m, s.readBuffer.readPos + m ≤ frontier ∧
      (processPackets env ambient size s).readBuffer.reads =
        s.readBuffer.reads ++ List.range' s.readBuffer.readPos m := by
  have hloop := loop_invariant (fun s : Connection κ => s.readBuffer.readPos < size)
    (processRound env ambient) (P := PacketArrived frontier)
    (I := fun t => s.readBuffer.AdvancesTo t.readBuffer ∧ t.readBuffer.readPos ≤ frontier)
    (fun t hc hp ht => ⟨IsTrans.trans _ _ _ ht.1 (round_advances env ambient t),
      round_stays (by omega) hp⟩) size s h ⟨Std.Refl.refl _, hb⟩
  rw [after] at hloop
  unfold processPackets
  split
  case h_1 s' hr =>
    rw [hr] at hloop
    obtain ⟨⟨m, hm⟩, hle⟩ := hloop
    simp only [exitState] at hm hle
    rw [hm] at hle ⊢
    exact ⟨m, hle, rfl⟩
  case h_2 e s' hr =>
    rw [hr] at hloop
    obtain ⟨⟨m, hm⟩, hle⟩ := hloop
    simp only [exitState] at hm hle
    rw [hm] at hle
    refine ⟨m, hle, ?_⟩
    dsimp only [clearBuffer]
    rw [hm, ReadCursor.advance_reads]

end Handlers

theorem startRead_reads (s : Connection κ) :
    (startRead s).readBuffer.reads = s.readBuffer.reads := by
  have hm : ∀ b : Buffer, b.mutableBuffer.reads = b.reads := by
    intro b
    unfold mutableBuffer
    split_ifs <;> rfl
  simp only [startRead, emit_readBuffer, hm]
  split_ifs <;> rfl

end Connection

/-! ## Following the origin of the bytes -/

/-- A connection with the number of the byte at each position of its read
buffer, the number of bytes that have arrived, and the numbers of those consumed. -/
structure Followed (κ : Type) where
  connection : Connection κ
  origin : Nat → Option Nat := fun _ => none
  arrived : Nat := 0
  consumed : List (Option Nat) := []

namespace Followed

/-- A completion puts the next `n` bytes at the start of the posted region. -/
def fill (start n arrived : Nat) (origin : Nat → Option Nat) : Nat → Option Nat := fun i =>
  if start ≤ i ∧ i < start + n then some (arrived + (i - start)) else origin i

/-- `start_read` keeps the vector, or clears it and fills it up with zeros. -/
def repost (s : Connection κ) (origin : Nat → Option Nat) : Nat → Option Nat :=
  if s.readBuffer.readPos ≥ s.readBuffer.data.length then fun _ => none else origin

def step (env : Environment κ) (f : Followed κ) (e : ConnectionEvent) : Option (Followed κ) :=
  (Connection.step env f.connection e).map fun s =>
    match e with
    | .handleConnection _ =>
        { f with connection := s, origin := repost f.connection f.origin }
    | .readCompleted bytes ambient =>
        let received := decryptReadBuffer env bytes.length (receive bytes f.connection)
        let filled := fill f.connection.readBuffer.readPos bytes.length f.arrived f.origin
        { connection := s
          origin := repost (processPackets env ambient bytes.length received) filled
          arrived := f.arrived + bytes.length
          consumed := f.consumed ++
            (s.readBuffer.reads.drop f.connection.readBuffer.reads.length).map filled }
    | _ => { f with connection := s }

/-- No cipher is installed when a read completes, and the bytes of every packet
that is then begun have arrived, or the vector ends before them. -/
def Arrives (env : Environment κ) (f : Followed κ) : ConnectionEvent → Prop
  | .readCompleted bytes ambient => f.connection.cipher = none ∧
      EachArrived env ambient (f.connection.readBuffer.readPos + bytes.length) bytes.length
        (receive bytes f.connection)
  | _ => True

instance (env : Environment κ) (f : Followed κ) (e : ConnectionEvent) :
    Decidable (Arrives env f e) :=
  match e with
  | .readCompleted _ _ => inferInstanceAs (Decidable (_ ∧ _))
  | .handleConnection _ | .readFailed | .writeCompleted | .writeFailed _ | .sendKeepAlive _
  | .kickPlayer _ | .addPacketToQueue _ => .isTrue trivial

/-- The consumed bytes have all arrived, and were consumed in the order of
arrival and at most once. -/
def InOrder (f : Followed κ) : Prop :=
  ∃ ks : List Nat, f.consumed = ks.map some ∧ ks.Pairwise (· < ·) ∧ ∀ k ∈ ks, k < f.arrived

variable {env : Environment κ} {f f' : Followed κ}

/-- The first positions of the filled region hold the next bytes. -/
theorem map_fill (start arrived : Nat) (origin : Nat → Option Nat) {m n : Nat} (h : m ≤ n) :
    (List.range' start m).map (fill start n arrived origin) =
      (List.range' arrived m).map some := by
  apply List.ext_getElem (by simp)
  intro i hi _
  rw [List.length_map, List.length_range'] at hi
  simp only [List.getElem_map, List.getElem_range', fill]
  rw [if_pos (by omega)]
  congr 1
  omega

/-- A completion on arrived packets consumes the first of the bytes that it brings. -/
theorem consumed_of_readCompleted {bytes : List Byte} {ambient : Ambient}
    (hg : Arrives env f (.readCompleted bytes ambient))
    (hstep : step env f (.readCompleted bytes ambient) = some f') :
    f'.arrived = f.arrived + bytes.length ∧ ∃ m, m ≤ bytes.length ∧
      f'.consumed = f.consumed ++ (List.range' f.arrived m).map some := by
  obtain ⟨hcipher, harrived⟩ := hg
  obtain ⟨s, hs, rfl⟩ := Option.map_eq_some_iff.mp hstep
  refine ⟨rfl, ?_⟩
  cases step_cases hs with
  | readCompleted _ _ =>
      obtain ⟨m, hm, hreads⟩ := processPackets_reads (s := receive bytes f.connection)
        (Nat.le_add_left _ _) (Nat.le_add_right _ _) harrived
      have hle : m ≤ bytes.length := by
        simp only [receive_readPos] at hm
        omega
      refine ⟨m, hle, ?_⟩
      dsimp only
      rw [handleRead, startRead_reads,
        decryptReadBuffer_of_none env bytes.length (s := receive bytes f.connection) hcipher,
        hreads]
      have hdrop : ((receive bytes f.connection).readBuffer.reads ++
          List.range' (receive bytes f.connection).readBuffer.readPos m).drop
            f.connection.readBuffer.reads.length =
          List.range' f.connection.readBuffer.readPos m := List.drop_left
      rw [hdrop, map_fill _ _ _ hle]

theorem InOrder.step {e : ConnectionEvent} (hg : Arrives env f e)
    (hstep : step env f e = some f') (h : InOrder f) : InOrder f' := by
  cases e with
  | readCompleted bytes ambient =>
      obtain ⟨harrived, m, hm, hconsumed⟩ := consumed_of_readCompleted hg hstep
      obtain ⟨ks, hks, hsorted, hlt⟩ := h
      refine ⟨ks ++ List.range' f.arrived m, ?_, ?_, ?_⟩
      · rw [hconsumed, hks, List.map_append]
      · apply List.pairwise_append.mpr
        refine ⟨hsorted, List.pairwise_lt_range' _ Nat.one_pos, ?_⟩
        intro a ha b hb
        have hab := hlt a ha
        rw [List.mem_range'_1] at hb
        omega
      · intro k hk
        rw [harrived]
        rcases List.mem_append.mp hk with hold | hnew
        · have hkl := hlt k hold
          omega
        · rw [List.mem_range'_1] at hnew
          omega
  | handleConnection _ | readFailed | writeCompleted | writeFailed _ | sendKeepAlive _
  | kickPlayer _ | addPacketToQueue _ =>
      obtain ⟨s, _, rfl⟩ := Option.map_eq_some_iff.mp hstep
      exact h

/-- In every run without a cipher in which each packet has arrived when it is
begun, `process_packets` and its handlers consume only bytes that have arrived,
in the order of arrival and at most once. -/
theorem consumed_in_order_of_run {now : Int} {es : List ConnectionEvent}
    (run : GuardedRun (step env) (Arrives env) { connection := create now } es f) :
    ∃ ks : List Nat, f.consumed = ks.map some ∧ ks.Pairwise (· < ·) ∧ ∀ k ∈ ks, k < f.arrived := by
  have h : InOrder f := by
    apply run.invariant (fun _ _ _ hg hstep h => h.step hg hstep)
    exact ⟨[], rfl, List.Pairwise.nil, nofun⟩
  exact h

/-- Two keep-alive ids, and then a position packet. -/
def wholePacketEvents : List ConnectionEvent :=
  [.handleConnection {}, .readCompleted [0x00, 0x00] chainAmbient,
    .readCompleted (ClientPacket.playerPosition 1 2 3 4 1).encode chainAmbient]

theorem consumed_in_order_of_run_whole : ∃ f : Followed Byte,
    GuardedRun (step chainEnvironment) (Arrives chainEnvironment) { connection := create 0 }
      wholePacketEvents f ∧ f.consumed.length = 36 ∧
      ∃ ks : List Nat, f.consumed = ks.map some ∧ ks.Pairwise (· < ·) ∧
        ∀ k ∈ ks, k < f.arrived := by
  obtain ⟨f, hrun, hlen⟩ := exists_guardedRun (step chainEnvironment) (Arrives chainEnvironment)
    { connection := create 0 } wholePacketEvents (fun f => f.consumed.length = 36)
    (by decide +kernel)
  exact ⟨f, hrun, hlen, consumed_in_order_of_run hrun⟩

/-- Of a position packet only the id arrives. Its handler reads the zeros behind
it and acts on them. -/
theorem position_of_zeros : ∃ f : Followed Byte,
    GuardedRun (step chainEnvironment) Unguarded { connection := create 0 }
      [.handleConnection {}, .readCompleted [0x0B] chainAmbient] f ∧
      f.connection.cipher = none ∧ f.arrived = 1 ∧ none ∈ f.consumed ∧
      .handled (.playerPosition {}) ∈ f.connection.trace :=
  exists_guardedRun _ _ _ _ _ (by decide +kernel)

end Followed

end CarpetSrv.Network
