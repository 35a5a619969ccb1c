import CarpetSrv.Network.ChunkedReading
import CarpetSrv.Network.Disconnection
import CarpetSrv.Network.LoginCompletion

/-!
# The last write of a connection

A connection that is to be closed, by `mustDisconnect` or because it has
answered a ping, closes its socket on the next write that completes. If a write
is already on its way then, it is the last one: everything queued behind it is
lost. A client that begins with a ping therefore gets the server information
and nothing else, and one of another version gets the reason of the rejection
and nothing else, although its handshake is answered as well.

## Implementation notes

Before the first packet the server may tick. A tick that finds the client
silent calls `disconnect()`, which sends nothing and does not keep the packet
from being read. A write fails only on a closed socket.
-/

namespace CarpetSrv.Network.Connection

open Foundation Foundation.ExceptState Packet Utils

variable {κ : Type}

/-- Writes fail on a closed socket only. -/
def FailsOnlyClosed (s : Connection κ) (e : ConnectionEvent) : Prop :=
  s.socket.isOpen = true → Succeeds e

instance (s : Connection κ) (e : ConnectionEvent) : Decidable (FailsOnlyClosed s e) :=
  inferInstanceAs (Decidable (_ → _))

/-! ## Behind the last write -/

/-- The write `w` is on its way and closes the socket when it completes, or
that is `done`. -/
structure LastWrite (w : PendingWrite) (done : Bool) (s : Connection κ) : Prop where
  isOpen : s.socket.isOpen = !done
  completed : observe completedBatch s = if done then [w.batch] else []
  underway : done = false → s.isWriting = true ∧ s.socket.pendingWrite = some w ∧
    ClosesOnWrite w.bytes.length s
  stopped : done = true → s.running = false

section Methods

variable {env : Environment κ} {w : PendingWrite} {done : Bool} {s t : Connection κ}

theorem LastWrite.congr (h : LastWrite w done s) (ho : t.socket.isOpen = s.socket.isOpen)
    (hobs : observe completedBatch t = observe completedBatch s)
    (hw : s.isWriting = true → t.isWriting = true ∧
      t.socket.pendingWrite = s.socket.pendingWrite)
    (hc : ClosesOnWrite w.bytes.length s → ClosesOnWrite w.bytes.length t)
    (hr : s.running = false → t.running = false) : LastWrite w done t where
  isOpen := ho.trans h.isOpen
  completed := hobs.trans h.completed
  underway hd := by
    obtain ⟨hwriting, hpending, hcloses⟩ := h.underway hd
    exact ⟨(hw hwriting).1, (hw hwriting).2.trans hpending, hc hcloses⟩
  stopped hd := hr (h.stopped hd)

theorem LastWrite.emit {e : Effect} (he : completedBatch e = none) (h : LastWrite w done s) :
    LastWrite w done (emit e s) :=
  h.congr rfl (observe_emit_none he s) (fun hw => ⟨hw, rfl⟩) id id

theorem LastWrite.usePlayer (f : Player → Player) (h : LastWrite w done s) :
    LastWrite w done (usePlayer f s) := by
  apply h.congr _ (observe_usePlayer f s rfl)
  · intro hw
    rw [usePlayer_isWriting, usePlayer_socket]
    exact ⟨hw, rfl⟩
  · intro hc
    rwa [ClosesOnWrite, usePlayer_mustDisconnect, usePlayer_status]
  · intro hr
    rw [usePlayer_running, hr]
  · rw [usePlayer_socket]

/-- A packet that is queued behind the last write waits. -/
theorem LastWrite.addPacketToQueue (p : Packet) (h : LastWrite w done s) :
    LastWrite w done (addPacketToQueue env p s) := by
  apply h.congr (addPacketToQueue_isOpen ..)
  · rw [observe_addPacketToQueue env p s fun _ _ => rfl]
    exact List.append_nil _
  · intro hw
    rw [addPacketToQueue_of_busy env hw]
    exact ⟨hw, rfl⟩
  · intro hc
    rwa [ClosesOnWrite, addPacketToQueue_mustDisconnect, addPacketToQueue_status]
  · intro hr
    rw [addPacketToQueue_running, hr]

theorem LastWrite.disconnect (h : LastWrite w done s) : LastWrite w done (disconnect s) :=
  (h.congr (t := { s with running := false, mustDisconnect := true }) rfl rfl
    (fun hw => ⟨hw, rfl⟩) (fun _ => .inl rfl) fun _ => rfl).emit rfl

theorem LastWrite.disconnectWith (reason : UTF16String) (h : LastWrite w done s) :
    LastWrite w done (disconnectWith env reason s) :=
  disconnectWith_keeps reason LastWrite.addPacketToQueue LastWrite.usePlayer
    (fun h => h.congr rfl rfl (fun hw => ⟨hw, rfl⟩) id fun _ => rfl)
    (fun h => h.congr rfl rfl (fun hw => ⟨hw, rfl⟩) (fun _ => .inl rfl) id) (h.emit rfl)

/-- A connection that is not in PING is closed by `mustDisconnect`, whatever its status. -/
theorem LastWrite.setStatus (status : Status) (hst : s.status ≠ .ping)
    (h : LastWrite w done s) : LastWrite w done { s with status := status } :=
  h.congr rfl rfl (fun hw => ⟨hw, rfl⟩) (fun hc => .inl (hc.resolve_right fun hp => hst hp.2)) id

theorem LastWrite.versionChecked (p : ClientProtocolPacket) (h : LastWrite w done s) :
    LastWrite w done (versionChecked env p s) :=
  versionChecked_keeps LastWrite.usePlayer (fun _ _ => h.disconnectWith _) h

theorem LastWrite.greeted (token : Vector Byte 4) (p : ClientProtocolPacket)
    (hst : s.status ≠ .ping) (h : LastWrite w done (Connection.versionChecked env p s)) :
    LastWrite w done (greeted env token p s) := by
  have hchecked : LastWrite w done
      { Connection.versionChecked env p s with verifyToken := token.toList } :=
    h.congr rfl rfl (fun hw => ⟨hw, rfl⟩) id id
  exact ((hchecked.addPacketToQueue _).setStatus .login (by simpa using hst)).emit rfl

theorem LastWrite.loggedIn (cipher : AESCipher κ) (p : SharedKeyPacket) (hst : s.status ≠ .ping)
    (h : LastWrite w done s) : LastWrite w done (loggedIn env cipher p s) := by
  have hchecked : LastWrite w done (Connection.tokenChecked p s) :=
    tokenChecked_keeps (fun _ => h.disconnect) h
  have hkeyed : LastWrite w done { Connection.tokenChecked p s with cipher := some cipher } :=
    hchecked.congr rfl rfl (fun hw => ⟨hw, rfl⟩) id id
  have hinstalled : LastWrite w done (Connection.emit (.cipherInstalled p.sharedSecret) _) :=
    hkeyed.emit rfl
  have hlogin : LastWrite w done (Connection.addPacketToQueue env (.login {}) _) :=
    hinstalled.addPacketToQueue _
  have hspawn : LastWrite w done (Connection.addPacketToQueue env (.spawnPoint ⟨0, 0, 0⟩) _) :=
    hlogin.addPacketToQueue _
  have hqueued : LastWrite w done (Connection.addPacketToQueue env (.playerPosition {}) _) :=
    hspawn.addPacketToQueue _
  exact (hqueued.setStatus .play (by simpa using hst)).emit rfl

/-- No handler completes a write. -/
theorem lastWrite_readClosed (env : Environment κ) (w : PendingWrite) (done : Bool) :
    ReadClosed env AnyPacket (LastWrite w done) where
  readBuffer _ h := h.congr rfl rfl (fun hw => ⟨hw, rfl⟩) id id
  pendingRead _ h := h.congr rfl rfl (fun hw => ⟨hw, rfl⟩) id id
  decryptCtx _ _ h := h.congr rfl rfl (fun hw => ⟨hw, rfl⟩) id id
  emit {_ e} he h := h.emit (by cases e <;> first | rfl | cases he)
  pinged hst _ h := ((h.addPacketToQueue _).setStatus .ping (by simp [hst])).emit rfl
  unseeded _ _ _ h := h.versionChecked _
  greeted hst _ _ h := (h.versionChecked _).greeted _ _ (by simp [hst])
  badKey _ _ _ h := tokenChecked_keeps (fun _ => h.disconnect) h
  loggedIn hst _ _ h := h.loggedIn _ _ (by simp [hst])
  informed _ h := (h.usePlayer _).emit rfl
  keptAlive {a s} _ h := by
    have hheard : LastWrite w done { s with lastActivity := a.now } :=
      h.congr rfl rfl (fun hw => ⟨hw, rfl⟩) id id
    exact hheard.emit rfl
  positioned _ h := (h.usePlayer _).emit rfl

/-- A write that ends on the closed socket changes nothing any more. -/
theorem LastWrite.abandon (h : LastWrite w true s) (size : Nat) : LastWrite w true
    (handleWrite true size { s with socket := { s.socket with pendingWrite := none } }) where
  isOpen := by
    simp only [handleWrite, if_true]
    split_ifs
    · rfl
    · exact h.isOpen
  completed := (observe_handleWrite rfl rfl ..).trans h.completed
  underway := nofun
  stopped _ := by
    simp only [handleWrite, if_true]
    split_ifs
    · rfl
    · exact h.stopped rfl

theorem handleWrite_running_of_closes {size : Nat} (h : ClosesOnWrite size s) :
    (handleWrite false size s).running = false := by
  unfold handleWrite
  by_cases hping : size ≠ 0 ∧ s.status = .ping
  · simp [hping]
  · have hmust : s.mustDisconnect = true := h.resolve_right hping
    simp [hping, hmust]

/-- The completion of the last write closes the socket. -/
theorem LastWrite.complete {v : PendingWrite} (h : LastWrite w false s)
    (hv : s.socket.pendingWrite = some v) :
    LastWrite w true (handleWrite false v.bytes.length (completeWrite v s)) := by
  obtain ⟨_, hpending, hcloses⟩ := h.underway rfl
  obtain rfl : v = w := Option.some.inj (hv.symm.trans hpending)
  constructor
  case isOpen => exact handleWrite_of_closes hcloses
  case completed =>
    have hobs := observe_emit_some (f := completedBatch) (e := .writeCompleted v.batch) rfl
      { s with socket := { s.socket with pendingWrite := none } }
    exact (observe_handleWrite rfl rfl ..).trans (hobs.trans (congrArg (· ++ _) h.completed))
  case underway => exact nofun
  case stopped => exact fun _ => handleWrite_running_of_closes hcloses

/-- The completion of the last write ends the writing, and nothing else does. -/
theorem LastWrite.step {e : ConnectionEvent} (h : LastWrite w done s) (hg : FailsOnlyClosed s e)
    (hstep : step env s e = some t) :
    ∃ done', (done' = true ↔ done = true ∨ .writeCompleted = e) ∧ LastWrite w done' t := by
  have hsame : .writeCompleted ≠ e → LastWrite w done t →
      ∃ done', (done' = true ↔ done = true ∨ .writeCompleted = e) ∧ LastWrite w done' t :=
    fun hne ht => ⟨done, (or_iff_left hne).symm, ht⟩
  cases step_cases hstep with
  | handleConnection _ _ =>
      apply hsame nofun
      exact (lastWrite_readClosed env w done).startRead
        (h.congr rfl rfl (fun hw => ⟨hw, rfl⟩) id id)
  | readCompleted _ _ =>
      apply hsame nofun
      exact (lastWrite_readClosed env w done).readCompleted (eachPacket_anyPacket ..) h
  | readFailed _ => exact hsame nofun (h.congr rfl rfl (fun hw => ⟨hw, rfl⟩) id id)
  | sendKeepAlive =>
      exact hsame nofun (sendKeepAlive_keeps _ (fun _ => h.disconnectWith _) h.disconnect h)
  | kickPlayer => exact hsame nofun (h.disconnectWith _)
  | addPacketToQueue => exact hsame nofun (h.addPacketToQueue _)
  | writeFailed hv =>
      apply hsame nofun
      cases done with
      | false => exact (hg h.isOpen).elim
      | true => exact h.abandon _
  | writeCompleted hv ho =>
      refine ⟨true, by simp, ?_⟩
      cases done with
      | true => cases h.isOpen.symm.trans ho
      | false => exact h.complete hv

/-- What holds behind every run of a connection with its last write on the way. -/
def EndsWith (w : PendingWrite) (es : List ConnectionEvent) (t : Connection κ) : Prop :=
  (.writeCompleted ∉ es → t.socket.isOpen = true ∧ t.socket.pendingWrite = some w ∧
    observe completedBatch t = []) ∧
  (.writeCompleted ∈ es → t.socket.isOpen = false ∧ t.running = false ∧
    observe completedBatch t = [w.batch])

theorem LastWrite.of_run {es : List ConnectionEvent} (h : LastWrite w done s)
    (run : GuardedRun (Connection.step env) FailsOnlyClosed s es t) :
    ∃ done', (done' = true ↔ done = true ∨ .writeCompleted ∈ es) ∧ LastWrite w done' t := by
  induction run generalizing done with
  | refl s => exact ⟨done, by simp, h⟩
  | cons hg hstep _ ih =>
      obtain ⟨next, hnext, h⟩ := h.step hg hstep
      obtain ⟨last, hlast, h⟩ := ih h
      refine ⟨last, ?_, h⟩
      rw [hlast, hnext, List.mem_cons, or_assoc]

theorem LastWrite.endsWith {es : List ConnectionEvent} (h : LastWrite w false s)
    (run : GuardedRun (Connection.step env) FailsOnlyClosed s es t) : EndsWith w es t := by
  obtain ⟨done, hdone, h⟩ := h.of_run run
  simp only [Bool.false_eq_true, false_or] at hdone
  constructor
  · intro hnone
    obtain rfl : done = false := Bool.eq_false_iff.mpr fun hd => hnone (hdone.mp hd)
    exact ⟨h.isOpen, (h.underway rfl).2.1, h.completed⟩
  · intro hsome
    obtain rfl : done = true := hdone.mpr hsome
    exact ⟨h.isOpen, h.stopped rfl, h.completed⟩

end Methods

/-! ## The first packet -/

/-- Nothing has been handled, and nothing has been queued. -/
structure Unanswered (s : Connection κ) : Prop where
  status : s.status = .handshake
  isOpen : s.socket.isOpen = true
  isWriting : s.isWriting = false
  queue : s.queue = []
  writeBuffer : s.writeBuffer = {}
  cipher : s.cipher = none
  completed : observe completedBatch s = []

/-- Moreover the first read is outstanding. -/
structure Idle (s : Connection κ) : Prop extends Unanswered s where
  readPos : s.readBuffer.readPos = 0
  posted : Posted s

section First

variable {env : Environment κ} {ambient : Ambient} {w : PendingWrite} {s t : Connection κ}
  {player : Player} {now : Int} {ticks behind : List ConnectionEvent}

theorem Unanswered.emit {e : Effect} (he : completedBatch e = none) (h : Unanswered s) :
    Unanswered (emit e s) :=
  ⟨h.status, h.isOpen, h.isWriting, h.queue, h.writeBuffer, h.cipher,
    (observe_emit_none he s).trans h.completed⟩

theorem Unanswered.consumed (p : ClientPacket) (bytes : List Byte) (h : Unanswered s) :
    Unanswered (consumed p (receive bytes s)) := by
  have hobs : observe completedBatch (Connection.consumed p (receive bytes s)) = [] :=
    (observe_emit_none rfl _).trans ((observe_emit_none rfl _).trans h.completed)
  exact ⟨h.status, h.isOpen, h.isWriting, h.queue, h.writeBuffer, h.cipher, hobs⟩

/-- The first packet of a connection is posted at once. -/
theorem Unanswered.addPacketToQueue (env : Environment κ) (p : Packet) (h : Unanswered s) :
    (addPacketToQueue env p s).socket.pendingWrite = some ⟨[p], output env.keypair p⟩ := by
  have hcipher : (drainQueue env (pushPacket p s)).cipher = none := h.cipher
  have hqueue : (pushPacket p s).queue = [p] := by
    rw [pushPacket, emit_queue, h.queue]
    rfl
  have hdrained : (drainQueue env (pushPacket p s)).writeBuffer = p.writeData env.keypair {} := by
    rw [drainQueue, hqueue, ← h.writeBuffer]
    rfl
  have hstart : (p.writeData env.keypair {}).readPos = 0 := by
    obtain ⟨bytes, happends⟩ := p.writeData_appends env.keypair
    rw [happends]
    rfl
  rw [addPacketToQueue_eq, startWrite_of_idle env (s := pushPacket p s) h.isWriting,
    encryptWriteBuffer_of_none env hcipher, hqueue]
  simp only [postWrite, emit_socket, hdrained, constBuffer_of_atStart hstart, output]

theorem idle_opened : Idle (opened player now : Connection κ) :=
  ⟨⟨rfl, rfl, rfl, rfl, rfl, rfl, rfl⟩, by rw [opened_readBuffer], listening_opened.posted⟩

theorem Idle.sendKeepAlive (h : Idle s) (now : Int) : Idle (sendKeepAlive env now s) := by
  have hst : ¬ s.status = .play := by simp [h.status]
  unfold Connection.sendKeepAlive
  split_ifs
  · have hobs : observe completedBatch (disconnect s) = [] :=
      (observe_emit_none rfl _).trans h.completed
    exact ⟨⟨h.status, h.isOpen, h.isWriting, h.queue, h.writeBuffer, h.cipher, hobs⟩,
      h.readPos, h.posted⟩
  · exact h

/-- Ticks leave an idle connection idle. -/
theorem Idle.of_ticks (h : Idle s) (hticks : ∀ e ∈ ticks, ∃ now, e = .sendKeepAlive now)
    (run : GuardedRun (step env) FailsOnlyClosed s ticks t) : Idle t := by
  induction run with
  | refl s => exact h
  | cons _ hstep _ ih =>
      obtain ⟨now, rfl⟩ := hticks _ List.mem_cons_self
      cases hstep
      exact ih (h.sendKeepAlive now) fun e he => hticks e (List.mem_cons_of_mem _ he)

/-- When the first round of the first read posts the last write, nothing that
the read brings behind it matters. -/
theorem Idle.lastWrite {bytes : List Byte} (h : Idle s) (hne : bytes ≠ [])
    (hround : LastWrite w false (after (processRound env ambient) (receive bytes s)))
    (hstep : step env s (.readCompleted bytes ambient) = some t) : LastWrite w false t := by
  have hclosed := lastWrite_readClosed env w false
  have hpos : (receive bytes s).readBuffer.readPos < bytes.length := by
    rw [receive_readPos, h.readPos]
    exact List.length_pos_of_ne_nil hne
  cases step_cases hstep with
  | readCompleted _ _ =>
      rw [handleRead_of_no_cipher h.cipher, processPackets_unfold, if_pos hpos]
      apply hclosed.startRead
      rw [after] at hround
      cases hr : processRound env ambient (receive bytes s) with
      | ok b m =>
          rw [hr] at hround
          cases b with
          | true => exact hclosed.processPackets (eachPacket_anyPacket ..) hround
          | false => exact hround
      | error e m =>
          rw [hr] at hround
          exact hclosed.readBuffer _ hround

/-- The ticks, the first read and the rest of a run whose first packet posts
the last write. -/
theorem endsWith_of_first {bytes : List Byte} (hne : bytes ≠ [])
    (hticks : ∀ e ∈ ticks, ∃ now, e = .sendKeepAlive now)
    (hround : ∀ {s : Connection κ}, Idle s → bytes.length ≤ s.regionLength →
      LastWrite w false (after (processRound env ambient) (receive bytes s)))
    (run : GuardedRun (step env) FailsOnlyClosed (opened player now)
      (ticks ++ .readCompleted bytes ambient :: behind) t) : EndsWith w behind t := by
  obtain ⟨s, hbefore, hrun⟩ := run.split
  have hidle : Idle s := idle_opened.of_ticks hticks hbefore
  cases hrun with
  | cons _ hstep tail =>
      have hregion : bytes.length ≤ s.regionLength := by
        cases step_cases hstep with
        | readCompleted _ hl => exact hl
      exact (hidle.lastWrite hne (hround hidle hregion) hstep).endsWith tail

end First

/-! ## Pings -/

/-- The packet that answers a ping. -/
def pingAnswer : Packet :=
  .kick ⟨serializeServerInfo (literal ['1', '.', '4', '.', '7'])
    (literal ("A server running Carpet SRV".toList)) 0 20⟩

section Ping

variable {env : Environment κ} {ambient : Ambient} {s : Connection κ}

theorem output_pingAnswer_ne (keypair : KeyPair) : output keypair pingAnswer ≠ [] := by
  have hlen : (output keypair pingAnswer).length ≠ 0 := by
    rw [show output keypair pingAnswer = output ⟨[], fun _ => none⟩ pingAnswer from rfl]
    decide +kernel
  exact fun hnil => hlen (by rw [hnil]; rfl)

theorem Unanswered.pinged (h : Unanswered s) (p : ServerPingPacket) :
    LastWrite ⟨[pingAnswer], output env.keypair pingAnswer⟩ false (pinged env p s) where
  isOpen := (addPacketToQueue_isOpen ..).trans h.isOpen
  completed := by
    have hobs := observe_pinged env s (f := completedBatch) (fun _ _ => rfl) p
    rw [h.completed] at hobs
    exact hobs
  underway _ := by
    have hsize : (output env.keypair pingAnswer).length ≠ 0 :=
      List.length_eq_zero_iff.not.mpr (output_pingAnswer_ne env.keypair)
    exact ⟨addPacketToQueue_isWriting env _ s, h.addPacketToQueue env pingAnswer,
      .inr ⟨hsize, rfl⟩⟩
  stopped := nofun

/-- A read whose first byte is 0xFE is a ping, whatever comes behind it. The
byte that the handler reads may be one that was never received. -/
theorem Idle.round_serverPing {rest : List Byte} (h : Idle s)
    (hl : (0xFE :: rest).length ≤ s.regionLength) :
    LastWrite ⟨[pingAnswer], output env.keypair pingAnswer⟩ false
      (after (processRound env ambient) (receive (0xFE :: rest) s)) := by
  have hregion : 1 + rest.length ≤ 4096 := by
    rw [regionLength, h.posted.1, h.readPos] at hl
    rwa [List.length_cons, Nat.add_comm] at hl
  have hne : rest ++ s.readBuffer.data.drop (0 + (0xFE :: rest).length) ≠ [] := by
    apply List.ne_nil_of_length_pos
    rw [List.length_append, List.length_drop, h.posted.1, List.length_cons, Buffer.readBufferSize]
    omega
  obtain ⟨ping, ys, htail⟩ := List.exists_cons_of_ne_nil hne
  have hrest : (receive (0xFE :: rest) s).readBuffer.rest =
      (ClientPacket.serverPing ping).encode ++ ys := by
    rw [rest_receive h.posted, h.readPos, List.cons_append, htail]
    rfl
  have hid := (receive (0xFE :: rest) s).readBuffer.getElem?_of_rest hrest
  have hst : (entered (ClientPacket.serverPing ping).id (receive (0xFE :: rest) s)).status =
      .handshake := h.status
  rw [after, processRound_of_lookup hid rfl, handleServerPingPacket_apply, if_pos hst,
    serverPing_reads ping _ _ (rest_entered hrest)]
  exact (h.consumed (.serverPing ping) (0xFE :: rest)).pinged _

end Ping

/-- In every run of a client whose first read begins with a ping, whatever the
client sends behind it and whoever kicks it, the answer is the one write that
completes, and its completion closes the socket for good. -/
theorem ping_exchange {env : Environment κ} {player : Player} {now : Int} {ambient : Ambient}
    {ticks behind : List ConnectionEvent} {rest : List Byte} {t : Connection κ}
    (hticks : ∀ e ∈ ticks, ∃ now, e = .sendKeepAlive now)
    (run : GuardedRun (step env) FailsOnlyClosed (opened player now)
      (ticks ++ .readCompleted (0xFE :: rest) ambient :: behind) t) :
    EndsWith ⟨[pingAnswer], output env.keypair pingAnswer⟩ behind t :=
  endsWith_of_first (List.cons_ne_nil _ _) hticks Idle.round_serverPing run

/-- A client that was silent for a while pings with a single byte. It is kicked
while the answer is on its way, and the kick is posted behind the closed socket
and fails. -/
theorem ping_exchange_kicked : ∃ t : Connection Byte,
    GuardedRun (step chainEnvironment) FailsOnlyClosed (opened {} 0)
        ([.sendKeepAlive 5, .sendKeepAlive 21] ++ .readCompleted [0xFE] chainAmbient ::
          [.kickPlayer [0x62], .writeCompleted, .kickPlayer [0x63], .writeFailed 0]) t ∧
      t.socket.isOpen = false ∧ observe completedBatch t = [[pingAnswer]] := by
  obtain ⟨t, run, _⟩ := exists_guardedRun (step chainEnvironment) FailsOnlyClosed (opened {} 0)
    ([.sendKeepAlive 5, .sendKeepAlive 21] ++ .readCompleted [0xFE] chainAmbient ::
      [.kickPlayer [0x62], .writeCompleted, .kickPlayer [0x63], .writeFailed 0])
    (fun t => t.status = .ping) (by decide +kernel)
  have hticks : ∀ e ∈ [ConnectionEvent.sendKeepAlive 5, .sendKeepAlive 21],
      ∃ now, e = .sendKeepAlive now := by simp
  obtain ⟨hclosed, _, hcompleted⟩ := (ping_exchange hticks run).2 (by simp)
  exact ⟨t, run, hclosed, hcompleted⟩

/-! ## Handshakes of another version -/

/-- The packet that rejects a client of another version. -/
def versionReject : Packet := .kick ⟨.ofString (literal ['p', 'i', 'n', 'g', 'e', 'd', '.'])⟩

section Reject

variable {env : Environment κ} {ambient : Ambient} {s : Connection κ}

theorem Unanswered.disconnectWith (reason : UTF16String) (h : Unanswered s) :
    LastWrite ⟨[.kick ⟨reason⟩], output env.keypair (.kick ⟨reason⟩)⟩ false
      (disconnectWith env reason s) where
  isOpen := (disconnectWith_isOpen ..).trans h.isOpen
  completed := by
    have hobs := observe_disconnectWith env reason s (f := completedBatch) (fun _ _ => rfl) rfl
    rw [h.completed] at hobs
    exact hobs
  underway _ := by
    have hcalled : Unanswered (Connection.emit (.disconnected (some reason)) s) := h.emit rfl
    refine ⟨disconnectWith_isWriting .., ?_, .inl rfl⟩
    rw [← hcalled.addPacketToQueue env (.kick ⟨reason⟩)]
    exact congrArg Socket.pendingWrite (usePlayer_socket ..)
  stopped := nofun

theorem Unanswered.versionChecked (h : Unanswered s) {p : ClientProtocolPacket}
    (hv : p.protocolVersion ≠ 51) :
    LastWrite ⟨[versionReject], output env.keypair versionReject⟩ false
      (versionChecked env p s) := by
  rw [Connection.versionChecked, if_pos hv]
  exact (h.disconnectWith _).usePlayer _

/-- A handshake of another version is rejected, with or without a token. -/
theorem Idle.round_rejected {version : Byte} {username serverHost : List Short}
    {serverPort : CInt} {rest : List Byte} (h : Idle s) (hv : version ≠ 51)
    (hwf : (ClientPacket.clientProtocol version username serverHost serverPort).WellFormed) :
    LastWrite ⟨[versionReject], output env.keypair versionReject⟩ false
      (after (processRound env ambient) (receive
        ((ClientPacket.clientProtocol version username serverHost serverPort).encode ++ rest)
        s)) := by
  let p := ClientPacket.clientProtocol version username serverHost serverPort
  have hrest : (receive (p.encode ++ rest) s).readBuffer.rest = p.encode ++ _ :=
    (rest_receive h.posted _).trans (List.append_assoc ..)
  have hid := (receive (p.encode ++ rest) s).readBuffer.getElem?_of_rest hrest
  have hst : (entered p.id (receive (p.encode ++ rest) s)).status = .handshake := h.status
  have hread : ClientProtocolPacket.readData
      (entered p.id (receive (p.encode ++ rest) s)).readBuffer = .ok _ _ :=
    clientProtocol_reads version serverPort hwf.1 hwf.2 _ _ (rest_entered hrest)
  have hwide : version.setWidth 32 ≠ (51 : CInt) := by bv_omega
  have hchecked : LastWrite _ false (Connection.versionChecked env
      (clientProtocolPacket version username serverHost serverPort)
      (consumed p (receive (p.encode ++ rest) s))) :=
    (h.consumed p (p.encode ++ rest)).versionChecked hwide
  rw [after, processRound_of_lookup hid rfl, handleHandshake_apply, if_pos hst, hread]
  cases hrand : ambient.rand with
  | none => exact hchecked
  | some token => exact hchecked.greeted _ _ (ne_of_eq_of_ne h.status (by decide))

end Reject

/-- In every run of a client whose first read begins with a handshake of
another version, the reason of the rejection is the one write that completes.
The packet of authentication data behind it is never sent. -/
theorem rejected_handshake {env : Environment κ} {player : Player} {now : Int}
    {ambient : Ambient} {ticks behind : List ConnectionEvent} {version : Byte}
    {username serverHost : List Short} {serverPort : CInt} {rest : List Byte}
    {t : Connection κ} (hv : version ≠ 51) (hname : username.length ≤ 16)
    (hhost : serverHost.length ≤ 255)
    (hticks : ∀ e ∈ ticks, ∃ now, e = .sendKeepAlive now)
    (run : GuardedRun (step env) FailsOnlyClosed (opened player now)
      (ticks ++ .readCompleted
        ((ClientPacket.clientProtocol version username serverHost serverPort).encode ++ rest)
        ambient :: behind) t) :
    EndsWith ⟨[versionReject], output env.keypair versionReject⟩ behind t :=
  endsWith_of_first (List.cons_ne_nil _ _) hticks
    (fun h _ => h.round_rejected hv ⟨hname, hhost⟩) run

/-- A client of version 50 sends a keep-alive in the same read. It is told the
reason, and is asked for no key. -/
theorem rejected_handshake_old : ∃ t : Connection Byte,
    GuardedRun (step chainEnvironment) FailsOnlyClosed (opened {} 0)
        ([.sendKeepAlive 5] ++ .readCompleted
          ((ClientPacket.clientProtocol 50 [0x41] [] 0).encode ++ [0x00]) chainAmbient ::
          [.sendKeepAlive 6, .writeCompleted]) t ∧
      t.status = .login ∧ t.socket.isOpen = false ∧
      observe completedBatch t = [[versionReject]] := by
  obtain ⟨t, run, hst⟩ := exists_guardedRun (step chainEnvironment) FailsOnlyClosed (opened {} 0)
    ([.sendKeepAlive 5] ++ .readCompleted
      ((ClientPacket.clientProtocol 50 [0x41] [] 0).encode ++ [0x00]) chainAmbient ::
      [.sendKeepAlive 6, .writeCompleted])
    (fun t => t.status = .login) (by decide +kernel)
  have hticks : ∀ e ∈ [ConnectionEvent.sendKeepAlive 5], ∃ now, e = .sendKeepAlive now := by simp
  have hends := rejected_handshake (by decide) (by decide) (by decide) hticks run
  obtain ⟨hclosed, _, hcompleted⟩ := hends.2 (by simp)
  exact ⟨t, run, hst, hclosed, hcompleted⟩

end CarpetSrv.Network.Connection
