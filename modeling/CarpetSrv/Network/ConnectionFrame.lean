import CarpetSrv.Network.Connection

/-!
# What the methods leave alone

`observe f` lists what one kind of observer sees of the history of a
connection. The lemmas of this file say, for each method that handlers and
ticks are made of, which members it keeps and what it adds to an observation.

## Implementation notes

`WritesOnly` collects everything that queueing and writing leave alone, so
that the case analysis of `addPacketToQueue` is done once.
-/

namespace CarpetSrv.Network.Connection

open Foundation Packet Utils

variable {κ α : Type}

/-! ## Observations -/

/-- What `f` makes of each effect so far, in order. -/
def observe (f : Effect → Option α) (s : Connection κ) : List α := s.trace.filterMap f

theorem observe_emit (f : Effect → Option α) (e : Effect) (s : Connection κ) :
    observe f (emit e s) = observe f s ++ (f e).toList := by
  simp only [observe, emit_trace, List.filterMap_append]
  cases h : f e <;> simp [h]

theorem observe_emit_none {f : Effect → Option α} {e : Effect} (h : f e = none)
    (s : Connection κ) : observe f (emit e s) = observe f s := by
  rw [observe_emit, h, Option.toList_none, List.append_nil]

theorem observe_emit_some {f : Effect → Option α} {e : Effect} {a : α} (h : f e = some a)
    (s : Connection κ) : observe f (emit e s) = observe f s ++ [a] := by
  rw [observe_emit, h, Option.toList_some]

theorem mem_observe {f : Effect → Option α} {a : α} {s : Connection κ} :
    a ∈ observe f s ↔ ∃ e ∈ s.trace, f e = some a := List.mem_filterMap

/-- A coarser observer sees a part of what a finer one sees. -/
theorem observe_bind {β : Type} {f : Effect → Option α} {g : Effect → Option β}
    {r : β → Option α} (h : ∀ e, f e = (g e).bind r) (s : Connection κ) :
    observe f s = (observe g s).filterMap r := by
  rw [observe, observe, List.filterMap_filterMap]
  exact congrArg (fun f => s.trace.filterMap f) (funext h)

/-! ## Queueing and writing -/

/-- `t` differs from `s` only where queueing and writing packets may differ. -/
structure WritesOnly (s t : Connection κ) : Prop where
  isOpen : t.socket.isOpen = s.socket.isOpen
  pendingRead : t.socket.pendingRead = s.socket.pendingRead
  running : t.running = s.running
  mustDisconnect : t.mustDisconnect = s.mustDisconnect
  readBuffer : t.readBuffer = s.readBuffer
  decryptCtx : t.cipher.map AESCipher.decryptCtx = s.cipher.map AESCipher.decryptCtx
  lastActivity : t.lastActivity = s.lastActivity
  player : t.player = s.player
  verifyToken : t.verifyToken = s.verifyToken
  status : t.status = s.status

namespace WritesOnly

theorem refl (s : Connection κ) : WritesOnly s s := by
  constructor <;> rfl

theorem trans {s t u : Connection κ} (h : WritesOnly s t) (h' : WritesOnly t u) :
    WritesOnly s u where
  isOpen := h'.isOpen.trans h.isOpen
  pendingRead := h'.pendingRead.trans h.pendingRead
  running := h'.running.trans h.running
  mustDisconnect := h'.mustDisconnect.trans h.mustDisconnect
  readBuffer := h'.readBuffer.trans h.readBuffer
  decryptCtx := h'.decryptCtx.trans h.decryptCtx
  lastActivity := h'.lastActivity.trans h.lastActivity
  player := h'.player.trans h.player
  verifyToken := h'.verifyToken.trans h.verifyToken
  status := h'.status.trans h.status

end WritesOnly

variable (env : Environment κ)

theorem encryptWriteBuffer_of_none {s : Connection κ} (h : s.cipher = none) :
    encryptWriteBuffer env s = s := by
  rw [encryptWriteBuffer, h]

theorem encryptWriteBuffer_of_some {s : Connection κ} {c : AESCipher κ} (h : s.cipher = some c) :
    encryptWriteBuffer env s =
      { s with
        writeBuffer := { s.writeBuffer with
          data := (env.evp.encrypt c.encryptCtx s.writeBuffer.data).1 }
        cipher := some { c with
          encryptCtx := (env.evp.encrypt c.encryptCtx s.writeBuffer.data).2 } } := by
  rw [encryptWriteBuffer, h]

theorem encryptWriteBuffer_writesOnly (s : Connection κ) :
    WritesOnly s (encryptWriteBuffer env s) := by
  cases h : s.cipher with
  | none =>
      rw [encryptWriteBuffer_of_none env h]
      exact .refl s
  | some c =>
      rw [encryptWriteBuffer_of_some env h]
      constructor
      case decryptCtx => rw [h]; rfl
      all_goals rfl

@[simp] theorem encryptWriteBuffer_trace (s : Connection κ) :
    (encryptWriteBuffer env s).trace = s.trace := by
  cases h : s.cipher with
  | none => rw [encryptWriteBuffer_of_none env h]
  | some c => rw [encryptWriteBuffer_of_some env h]

/-- The first part of `start_write`: the queue goes to the write buffer. -/
def drainQueue (s : Connection κ) : Connection κ :=
  { s with
    isWriting := true
    queue := []
    writeBuffer := s.queue.foldl (fun b p => p.writeData env.keypair b) s.writeBuffer }

/-- The last part of `start_write`: the write buffer goes to asio. -/
def postWrite (batch : List Packet) (s : Connection κ) : Connection κ :=
  emit (.writePosted batch s.writeBuffer.constBuffer)
    { s with socket := { s.socket with
        pendingWrite := some ⟨batch, s.writeBuffer.constBuffer⟩ } }

theorem startWrite_of_writing {s : Connection κ} (h : s.isWriting = true) :
    startWrite env s = s := by
  rw [startWrite, if_pos h]

theorem startWrite_of_idle {s : Connection κ} (h : s.isWriting = false) :
    startWrite env s = postWrite s.queue (encryptWriteBuffer env (drainQueue env s)) := by
  rw [startWrite, if_neg (by simp [h])]
  rfl

theorem startWrite_writesOnly (s : Connection κ) : WritesOnly s (startWrite env s) := by
  cases h : s.isWriting with
  | true =>
      rw [startWrite_of_writing env h]
      exact .refl s
  | false =>
      have hd : WritesOnly s (drainQueue env s) := by
        constructor <;> rfl
      rw [startWrite_of_idle env h]
      apply (hd.trans (encryptWriteBuffer_writesOnly env _)).trans
      constructor <;> rfl

theorem startWrite_trace_of_idle {s : Connection κ} (h : s.isWriting = false) :
    (startWrite env s).trace = s.trace ++ [.writePosted s.queue
      (encryptWriteBuffer env (drainQueue env s)).writeBuffer.constBuffer] := by
  rw [startWrite_of_idle env h, postWrite, emit_trace]
  exact congrArg (· ++ _) (encryptWriteBuffer_trace env _)

theorem observe_startWrite {f : Effect → Option α}
    (hf : ∀ batch bytes, f (.writePosted batch bytes) = none) (s : Connection κ) :
    observe f (startWrite env s) = observe f s := by
  cases h : s.isWriting with
  | true => rw [startWrite_of_writing env h]
  | false =>
      rw [observe, startWrite_trace_of_idle env h, List.filterMap_append]
      simp [hf, observe]

/-- The first part of `addPacketToQueue`: the packet goes behind the queue. -/
def pushPacket (packet : Packet) (s : Connection κ) : Connection κ :=
  emit (.enqueued packet) { s with queue := s.queue ++ [packet] }

theorem addPacketToQueue_eq (packet : Packet) (s : Connection κ) :
    addPacketToQueue env packet s = startWrite env (pushPacket packet s) := by
  unfold addPacketToQueue
  dsimp only
  split_ifs with h
  · exact (startWrite_of_writing env h).symm
  · rfl

theorem addPacketToQueue_writesOnly (packet : Packet) (s : Connection κ) :
    WritesOnly s (addPacketToQueue env packet s) := by
  have hq : WritesOnly s (pushPacket packet s) := by
    constructor <;> rfl
  rw [addPacketToQueue_eq]
  exact hq.trans (startWrite_writesOnly env _)

theorem startWrite_idle_effect {s : Connection κ} (h : s.isWriting = false) :
    (startWrite env s).queue = [] ∧ (startWrite env s).isWriting = true := by
  rw [startWrite_of_idle env h, postWrite]
  cases hc : (drainQueue env s).cipher with
  | none =>
      rw [encryptWriteBuffer_of_none env hc]
      exact ⟨rfl, rfl⟩
  | some c =>
      rw [encryptWriteBuffer_of_some env hc]
      exact ⟨rfl, rfl⟩

theorem addPacketToQueue_of_busy {s : Connection κ} (h : s.isWriting = true) (packet : Packet) :
    addPacketToQueue env packet s = pushPacket packet s := by
  rw [addPacketToQueue_eq]
  exact startWrite_of_writing env h

theorem addPacketToQueue_queue_of_idle {s : Connection κ} (h : s.isWriting = false)
    (packet : Packet) : (addPacketToQueue env packet s).queue = [] := by
  rw [addPacketToQueue_eq]
  exact (startWrite_idle_effect env (s := pushPacket packet s) h).1

/-- Between two writes the whole queue is posted behind the packet. -/
theorem addPacketToQueue_of_idle {s : Connection κ} (h : s.isWriting = false) (packet : Packet) :
    ∃ bytes, (addPacketToQueue env packet s).trace =
        s.trace ++ [.enqueued packet, .writePosted (s.queue ++ [packet]) bytes] ∧
      (addPacketToQueue env packet s).socket.pendingWrite =
        some ⟨s.queue ++ [packet], bytes⟩ := by
  have hp : (pushPacket packet s).isWriting = false := h
  refine ⟨(encryptWriteBuffer env (drainQueue env (pushPacket packet s))).writeBuffer.constBuffer,
    ?_, ?_⟩
  · rw [addPacketToQueue_eq, startWrite_trace_of_idle env hp, pushPacket, emit_trace,
      List.append_assoc]
    rfl
  · rw [addPacketToQueue_eq, startWrite_of_idle env hp]
    rfl

/-- Behind a queued packet a write is always in flight. -/
@[simp] theorem addPacketToQueue_isWriting (packet : Packet) (s : Connection κ) :
    (addPacketToQueue env packet s).isWriting = true := by
  by_cases h : s.isWriting = true
  · rw [addPacketToQueue_of_busy env h]
    exact h
  · rw [addPacketToQueue_eq]
    exact (startWrite_idle_effect env (s := pushPacket packet s) (Bool.eq_false_iff.mpr h)).2

section AddPacketToQueue

variable (packet : Packet) (s : Connection κ)

@[simp] theorem addPacketToQueue_isOpen :
    (addPacketToQueue env packet s).socket.isOpen = s.socket.isOpen :=
  (addPacketToQueue_writesOnly env packet s).isOpen

@[simp] theorem addPacketToQueue_pendingRead :
    (addPacketToQueue env packet s).socket.pendingRead = s.socket.pendingRead :=
  (addPacketToQueue_writesOnly env packet s).pendingRead

@[simp] theorem addPacketToQueue_running :
    (addPacketToQueue env packet s).running = s.running :=
  (addPacketToQueue_writesOnly env packet s).running

@[simp] theorem addPacketToQueue_mustDisconnect :
    (addPacketToQueue env packet s).mustDisconnect = s.mustDisconnect :=
  (addPacketToQueue_writesOnly env packet s).mustDisconnect

@[simp] theorem addPacketToQueue_readBuffer :
    (addPacketToQueue env packet s).readBuffer = s.readBuffer :=
  (addPacketToQueue_writesOnly env packet s).readBuffer

@[simp] theorem addPacketToQueue_player :
    (addPacketToQueue env packet s).player = s.player :=
  (addPacketToQueue_writesOnly env packet s).player

@[simp] theorem addPacketToQueue_verifyToken :
    (addPacketToQueue env packet s).verifyToken = s.verifyToken :=
  (addPacketToQueue_writesOnly env packet s).verifyToken

@[simp] theorem addPacketToQueue_status :
    (addPacketToQueue env packet s).status = s.status :=
  (addPacketToQueue_writesOnly env packet s).status

/-- An observer that does not watch the socket sees the packet being queued. -/
theorem observe_addPacketToQueue {f : Effect → Option α}
    (hf : ∀ batch bytes, f (.writePosted batch bytes) = none) :
    observe f (addPacketToQueue env packet s) = observe f s ++ (f (.enqueued packet)).toList := by
  rw [addPacketToQueue_eq, observe_startWrite env hf, pushPacket, observe_emit]
  rfl

end AddPacketToQueue

/-! ## The player -/

section UsePlayer

variable (f : Player → Player) (s : Connection κ)

/-- A use of the player changes the player and the history. -/
theorem usePlayer_eq : usePlayer f s =
    { s with
      player := s.player.map f
      trace := s.trace ++ (s.player.map fun _ => Effect.playerUsed).toList } := by
  obtain ⟨_, _, _, _, _, _, _, _, _, player, _, _, _⟩ := s
  cases player with
  | none => simp [usePlayer]
  | some player => rfl

@[simp] theorem usePlayer_socket : (usePlayer f s).socket = s.socket := by
  rw [usePlayer_eq]

@[simp] theorem usePlayer_running : (usePlayer f s).running = s.running := by
  rw [usePlayer_eq]

@[simp] theorem usePlayer_mustDisconnect :
    (usePlayer f s).mustDisconnect = s.mustDisconnect := by
  rw [usePlayer_eq]

@[simp] theorem usePlayer_writeBuffer : (usePlayer f s).writeBuffer = s.writeBuffer := by
  rw [usePlayer_eq]

@[simp] theorem usePlayer_readBuffer : (usePlayer f s).readBuffer = s.readBuffer := by
  rw [usePlayer_eq]

@[simp] theorem usePlayer_cipher : (usePlayer f s).cipher = s.cipher := by
  rw [usePlayer_eq]

@[simp] theorem usePlayer_queue : (usePlayer f s).queue = s.queue := by
  rw [usePlayer_eq]

@[simp] theorem usePlayer_isWriting : (usePlayer f s).isWriting = s.isWriting := by
  rw [usePlayer_eq]

@[simp] theorem usePlayer_player : (usePlayer f s).player = s.player.map f := by
  rw [usePlayer_eq]

@[simp] theorem usePlayer_verifyToken : (usePlayer f s).verifyToken = s.verifyToken := by
  rw [usePlayer_eq]

@[simp] theorem usePlayer_status : (usePlayer f s).status = s.status := by
  rw [usePlayer_eq]

theorem observe_usePlayer {g : Effect → Option α} (hg : g .playerUsed = none) :
    observe g (usePlayer f s) = observe g s := by
  rw [usePlayer_eq, observe, observe, List.filterMap_append]
  cases s.player <;> simp [hg]

end UsePlayer

/-! ## Disconnecting -/

section Disconnect

variable (reason : UTF16String) (s : Connection κ)

@[simp] theorem disconnectWith_isOpen :
    (disconnectWith env reason s).socket.isOpen = s.socket.isOpen := by
  simp [disconnectWith]

@[simp] theorem disconnectWith_pendingRead :
    (disconnectWith env reason s).socket.pendingRead = s.socket.pendingRead := by
  simp [disconnectWith]

@[simp] theorem disconnectWith_mustDisconnect :
    (disconnectWith env reason s).mustDisconnect = true := rfl

@[simp] theorem disconnectWith_isWriting :
    (disconnectWith env reason s).isWriting = true := by
  simp [disconnectWith]

@[simp] theorem disconnectWith_readBuffer :
    (disconnectWith env reason s).readBuffer = s.readBuffer := by
  simp [disconnectWith]

@[simp] theorem disconnectWith_verifyToken :
    (disconnectWith env reason s).verifyToken = s.verifyToken := by
  simp [disconnectWith]

@[simp] theorem disconnectWith_status : (disconnectWith env reason s).status = s.status := by
  simp [disconnectWith]

theorem observe_disconnectWith {f : Effect → Option α}
    (hf : ∀ batch bytes, f (.writePosted batch bytes) = none) (hp : f .playerUsed = none) :
    observe f (disconnectWith env reason s) =
      observe f s ++ (f (.disconnected (some reason))).toList ++
        (f (.enqueued (.kick ⟨reason⟩))).toList := by
  rw [← observe_emit, ← observe_addPacketToQueue env _ _ hf]
  exact observe_usePlayer id _ hp

end Disconnect

/-! ## Completed writes -/

section HandleWrite

variable {size : Nat} {s : Connection κ}

/-- The completion of a successful write of this size closes the socket. -/
def ClosesOnWrite (size : Nat) (s : Connection κ) : Prop :=
  s.mustDisconnect = true ∨ (size ≠ 0 ∧ s.status = .ping)

instance (size : Nat) (s : Connection κ) : Decidable (ClosesOnWrite size s) :=
  inferInstanceAs (Decidable (_ ∨ _))

theorem handleWrite_of_not_closes (h : ¬ ClosesOnWrite size s) : handleWrite false size s =
    { s with isWriting := false, writeBuffer := s.writeBuffer.clearBuffer } := by
  have hping : ¬ (size ≠ 0 ∧ s.status = .ping) := fun hp => h (.inr hp)
  have hmust : ¬ s.mustDisconnect = true := fun hm => h (.inl hm)
  simp only [handleWrite, Bool.false_eq_true, if_false, if_neg hping, if_neg hmust]

theorem handleWrite_of_closes (h : ClosesOnWrite size s) :
    (handleWrite false size s).socket.isOpen = false := by
  unfold handleWrite
  by_cases hping : size ≠ 0 ∧ s.status = .ping
  · simp [hping]
  · have hmust : s.mustDisconnect = true := h.resolve_right hping
    simp [hping, hmust]

theorem isOpen_handleWrite_iff : (handleWrite false size s).socket.isOpen = true ↔
    s.socket.isOpen = true ∧ ¬ ClosesOnWrite size s := by
  by_cases h : ClosesOnWrite size s
  · simp [handleWrite_of_closes h, h]
  · simp [handleWrite_of_not_closes h, h]

@[simp] theorem handleWrite_status (failed : Bool) (size : Nat) (s : Connection κ) :
    (handleWrite failed size s).status = s.status := by
  unfold handleWrite
  dsimp only
  split_ifs <;> rfl

@[simp] theorem handleWrite_readBuffer (failed : Bool) (size : Nat) (s : Connection κ) :
    (handleWrite failed size s).readBuffer = s.readBuffer := by
  unfold handleWrite
  dsimp only
  split_ifs <;> rfl

@[simp] theorem handleWrite_pendingRead (failed : Bool) (size : Nat) (s : Connection κ) :
    (handleWrite failed size s).socket.pendingRead = s.socket.pendingRead := by
  unfold handleWrite
  dsimp only
  split_ifs <;> rfl

@[simp] theorem handleWrite_cipher (failed : Bool) (size : Nat) (s : Connection κ) :
    (handleWrite failed size s).cipher = s.cipher := by
  unfold handleWrite
  dsimp only
  split_ifs <;> rfl

@[simp] theorem handleWrite_verifyToken (failed : Bool) (size : Nat) (s : Connection κ) :
    (handleWrite failed size s).verifyToken = s.verifyToken := by
  unfold handleWrite
  dsimp only
  split_ifs <;> rfl

theorem handleWrite_trace (failed : Bool) (size : Nat) (s : Connection κ) :
    ∃ effects, (handleWrite failed size s).trace = s.trace ++ effects ∧
      ∀ e ∈ effects, e = .disconnected none ∨ e = .closed := by
  unfold handleWrite
  dsimp only
  split_ifs
  · exact ⟨[.closed], rfl, by simp⟩
  · exact ⟨[], (List.append_nil _).symm, by simp⟩
  · exact ⟨[.disconnected none, .closed], by simp, by simp⟩
  · exact ⟨[.disconnected none], rfl, by simp⟩
  · exact ⟨[.closed], rfl, by simp⟩
  · exact ⟨[], (List.append_nil _).symm, by simp⟩

theorem observe_handleWrite {f : Effect → Option α} (hd : f (.disconnected none) = none)
    (hc : f .closed = none) (failed : Bool) (size : Nat) (s : Connection κ) :
    observe f (handleWrite failed size s) = observe f s := by
  unfold handleWrite
  dsimp only
  split_ifs
  all_goals simp [observe, hd, hc]

end HandleWrite

end CarpetSrv.Network.Connection
