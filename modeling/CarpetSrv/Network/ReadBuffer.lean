import CarpetSrv.Network.ConnectionRun
import CarpetSrv.Network.HandlerSpec

/-!
# The read buffer of a connection

Handlers only advance in the read buffer, and an exception clears it.
`start_read` leaves a vector of exactly 4096 bytes with a read position inside
it, so a read completion puts its bytes into the vector and leaves its length.
-/

namespace CarpetSrv.Network.Connection

open Foundation Foundation.ExceptState Foundation.BoundedLoop Packet Utils Buffer

variable {κ : Type}

/-! ## Processing advances or clears -/

section Process

variable {env : Environment κ} {ambient : Ambient} {s : Connection κ}

theorem handles_advances {id : Byte} {r : EStateM.Result RuntimeError (Connection κ) Unit}
    (h : Handles env ambient s id r) : s.readBuffer.AdvancesTo (exitState r).readBuffer := by
  cases h with
  | ignored _ => exact Std.Refl.refl _
  | malformed h => exact h
  | pinged _ hr =>
      rw [exitState, pinged_readBuffer]
      exact advancesTo_of_ok serverPing_advances hr
  | unseeded _ hr _ =>
      rw [exitState, versionChecked_readBuffer]
      exact advancesTo_of_ok clientProtocol_advances hr
  | greeted _ hr _ =>
      rw [exitState, greeted_readBuffer]
      exact advancesTo_of_ok clientProtocol_advances hr
  | badKey _ hr _ =>
      rw [exitState, tokenChecked_readBuffer]
      exact advancesTo_of_ok (sharedKey_advances _ _) hr
  | loggedIn _ hr _ =>
      rw [exitState, loggedIn_readBuffer]
      exact advancesTo_of_ok (sharedKey_advances _ _) hr
  | informed hr =>
      rw [exitState, informed_readBuffer]
      exact advancesTo_of_ok clientInfo_advances hr
  | keptAlive => exact Std.Refl.refl _
  | positioned hr =>
      rw [exitState, positioned_readBuffer]
      exact advancesTo_of_ok (playerPosition_advances _) hr

theorem advancesTo_entered (id : Byte) (s : Connection κ) :
    s.readBuffer.AdvancesTo (entered id s).readBuffer :=
  ⟨1, rfl⟩

theorem round_advances (env : Environment κ) (ambient : Ambient) (s : Connection κ) :
    s.readBuffer.AdvancesTo (after (processRound env ambient) s).readBuffer := by
  have hr := round_cases env ambient s
  rw [after]
  generalize processRound env ambient s = r at hr
  cases hr with
  | exhausted _ => exact Std.Refl.refl _
  | unknown _ _ => exact ⟨1, rfl⟩
  | returned _ hh => exact IsTrans.trans _ _ _ (advancesTo_entered _ s) (handles_advances hh)
  | threw _ hh => exact IsTrans.trans _ _ _ (advancesTo_entered _ s) (handles_advances hh)

/-- A round that goes on has moved past the id byte at least. -/
theorem round_progress {s' : Connection κ} (h : processRound env ambient s = .ok true s') :
    s.readBuffer.readPos < s'.readBuffer.readPos ∧
      s.readBuffer.readPos < s.readBuffer.data.length := by
  have hr := round_cases env ambient s
  rw [h] at hr
  cases hr with
  | returned hid hh =>
      have hle := (handles_advances hh).readPos_le
      refine ⟨?_, (List.getElem?_eq_some_iff.mp hid).1⟩
      simp only [entered, emit_readBuffer, ReadCursor.advance_readPos, exitState] at hle
      omega

theorem processPackets_readBuffer (env : Environment κ) (ambient : Ambient) (size : Nat)
    (s : Connection κ) :
    s.readBuffer.AdvancesTo (processPackets env ambient size s).readBuffer ∨
      (processPackets env ambient size s).readBuffer.data = [] := by
  have hl := loop_invariant (fun s : Connection κ => s.readBuffer.readPos < size)
    (processRound env ambient) (I := fun t => s.readBuffer.AdvancesTo t.readBuffer)
    (P := fun _ => True) (fun t _ _ ht => IsTrans.trans _ _ _ ht (round_advances env ambient t))
    size s (meets_of_forall _ _ (fun _ => trivial) _ _) (Std.Refl.refl _)
  rw [after] at hl
  unfold processPackets
  split
  case h_1 s' hr =>
    rw [hr] at hl
    exact .inl hl
  case h_2 e s' hr => exact .inr rfl

end Process

/-! ## The posted region -/

/-- The vector has the storage size and the read position is inside it. -/
def Posted (s : Connection κ) : Prop :=
  s.readBuffer.data.length = readBufferSize ∧ s.readBuffer.readPos < readBufferSize

theorem length_mutableBuffer {b : Buffer} (h : b.data.length ≤ readBufferSize) :
    b.mutableBuffer.data.length = readBufferSize := by
  unfold mutableBuffer Buffer.size
  split_ifs with hlt
  · simp only [resize, List.length_append, List.length_take, List.length_replicate]
    omega
  · exact Nat.le_antisymm h (Nat.not_lt.mp hlt)

@[simp] theorem mutableBuffer_readPos (b : Buffer) : b.mutableBuffer.readPos = b.readPos := by
  unfold mutableBuffer
  split_ifs <;> rfl

/-- `start_read` posts a region of a vector of 4096 bytes. -/
theorem startRead_posted {s : Connection κ} (h : s.readBuffer.data.length ≤ readBufferSize) :
    Posted (startRead s) := by
  simp only [Posted, startRead, emit_readBuffer, mutableBuffer_readPos]
  split_ifs with hpos
  · exact ⟨length_mutableBuffer (Nat.zero_le _), (by decide : 0 < readBufferSize)⟩
  · exact ⟨length_mutableBuffer h, by omega⟩

/-- The received bytes overwrite as many bytes of the vector. -/
theorem length_receive {s : Connection κ} {bytes : List Byte}
    (hpos : s.readBuffer.readPos ≤ s.readBuffer.data.length)
    (h : bytes.length ≤ s.regionLength) :
    (receive bytes s).readBuffer.data.length = s.readBuffer.data.length := by
  unfold regionLength at h
  simp only [receive, emit_readBuffer, List.length_append, List.length_take, List.length_drop]
  omega

@[simp] theorem receive_readPos (s : Connection κ) (bytes : List Byte) :
    (receive bytes s).readBuffer.readPos = s.readBuffer.readPos := rfl

theorem decryptReadBuffer_of_none (env : Environment κ) (size : Nat) {s : Connection κ}
    (h : s.cipher = none) : decryptReadBuffer env size s = s := by
  rw [decryptReadBuffer, h]

theorem length_decryptReadBuffer (env : Environment κ) (size : Nat) (s : Connection κ) :
    (decryptReadBuffer env size s).readBuffer.data.length = s.readBuffer.data.length := by
  unfold decryptReadBuffer
  cases s.cipher with
  | none => rfl
  | some c => exact StreamCipher.length_decrypt ..

/-! ## The vector in every run -/

/-- The vector never outgrows the storage size, and while a read is
outstanding it is the posted one. -/
structure ReadReady (s : Connection κ) : Prop where
  bounded : s.readBuffer.data.length ≤ readBufferSize
  posted : s.socket.pendingRead = true → Posted s

theorem ReadReady.congr {s t : Connection κ} (h : ReadReady s)
    (hb : t.readBuffer = s.readBuffer) (hp : t.socket.pendingRead = s.socket.pendingRead) :
    ReadReady t := by
  refine ⟨?_, fun ht => ?_⟩
  · rw [hb]
    exact h.bounded
  · unfold Posted
    rw [hb]
    exact h.posted (hp.symm.trans ht)

theorem ReadReady.of_create (now : Int) : ReadReady (create now : Connection κ) :=
  ⟨Nat.zero_le _, nofun⟩

theorem ReadReady.startRead {s : Connection κ} (h : s.readBuffer.data.length ≤ readBufferSize) :
    ReadReady (startRead s) :=
  ⟨Nat.le_of_eq (startRead_posted h).1, fun _ => startRead_posted h⟩

/-- The vector that `process_packets` leaves is the one it found, or empty. -/
theorem length_processPackets_le (env : Environment κ) (ambient : Ambient) (size : Nat)
    {s : Connection κ} (h : s.readBuffer.data.length ≤ readBufferSize) :
    (processPackets env ambient size (decryptReadBuffer env size s)).readBuffer.data.length ≤
      readBufferSize := by
  have hd := length_decryptReadBuffer env size s
  rcases processPackets_readBuffer env ambient size (decryptReadBuffer env size s) with ha | hnil
  · rw [ha.data_eq, hd]
    exact h
  · rw [hnil]
    exact Nat.zero_le _

theorem ReadReady.handleRead (env : Environment κ) (ambient : Ambient) (size : Nat)
    {s : Connection κ} (h : s.readBuffer.data.length ≤ readBufferSize) :
    ReadReady (handleRead env ambient size s) :=
  .startRead (length_processPackets_le env ambient size h)

theorem ReadReady.length_receive_le {s : Connection κ} {bytes : List Byte} (h : ReadReady s)
    (hr : s.socket.pendingRead = true) (hl : bytes.length ≤ s.regionLength) :
    (receive bytes s).readBuffer.data.length ≤ readBufferSize := by
  have hp := h.posted hr
  have hpos : s.readBuffer.readPos ≤ s.readBuffer.data.length := by
    have := hp.1
    have := hp.2
    omega
  rw [length_receive hpos hl]
  exact h.bounded

theorem ReadReady.step {env : Environment κ} {s t : Connection κ} {e : ConnectionEvent}
    (hstep : step env s e = some t) (h : ReadReady s) : ReadReady t := by
  cases step_cases hstep with
  | handleConnection _ _ => exact .startRead h.bounded
  | readCompleted hr hl =>
      apply ReadReady.handleRead
      exact h.length_receive_le hr hl
  | readFailed _ => exact ⟨h.bounded, nofun⟩
  | writeCompleted _ _ =>
      exact h.congr (handleWrite_readBuffer ..) (handleWrite_pendingRead ..)
  | writeFailed _ => exact h.congr (handleWrite_readBuffer ..) (handleWrite_pendingRead ..)
  | sendKeepAlive =>
      apply sendKeepAlive_keeps
      · intro reason
        exact h.congr (disconnectWith_readBuffer ..) (disconnectWith_pendingRead ..)
      · exact h.congr rfl rfl
      · exact h
  | kickPlayer => exact h.congr (disconnectWith_readBuffer ..) (disconnectWith_pendingRead ..)
  | addPacketToQueue =>
      exact h.congr (addPacketToQueue_readBuffer ..) (addPacketToQueue_pendingRead ..)

end CarpetSrv.Network.Connection
