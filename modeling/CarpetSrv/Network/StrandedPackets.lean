import CarpetSrv.Network.RunInvariant

/-!
# Stranded packets

`addPacketToQueue` starts a write unless one is in flight, and the completion
of a write starts none. A packet queued during a write therefore stays in the
queue until somebody queues another one. Nothing is stranded in the runs in
which packets are queued between writes only, or behind a write whose
completion closes the socket.
-/

namespace CarpetSrv.Network.Connection

open Foundation Foundation.ExceptState Packet Utils

variable {κ : Type}

/-! ## When a packet may be queued -/

/-- No write is in flight, or its completion closes the socket. -/
def MayQueue (s : Connection κ) : Prop :=
  ∀ w ∈ s.socket.pendingWrite, ClosesOnWrite w.bytes.length s

instance (s : Connection κ) : Decidable (MayQueue s) :=
  inferInstanceAs (Decidable (∀ w ∈ s.socket.pendingWrite, _))

/-- The packets whose handlers queue nothing behind a write that leaves the
socket open. A version other than 51 and a wrong token set `mustDisconnect`
first. An accepted shared key queues three packets one after the other. -/
def QueuesInTime (ambient : Ambient) : HandledPacket → Connection κ → Prop
  | .serverPing _, s => s.isWriting = true →
      ∀ w ∈ s.socket.pendingWrite, s.mustDisconnect = true ∨ w.bytes.length ≠ 0
  | .clientProtocol p, s => ambient.rand.isSome → p.protocolVersion = 51 →
      s.isWriting = true → s.mustDisconnect = true
  | .sharedKey p, s => p.sharedSecret.length = 16 →
      s.mustDisconnect = true ∨ s.verifyToken ≠ p.verifyToken
  | _, _ => True

instance (ambient : Ambient) : ∀ (p : HandledPacket) (s : Connection κ),
    Decidable (QueuesInTime ambient p s)
  | .serverPing _, s => inferInstanceAs (Decidable (s.isWriting = true →
      ∀ w ∈ s.socket.pendingWrite, s.mustDisconnect = true ∨ w.bytes.length ≠ 0))
  | .clientProtocol p, s => inferInstanceAs (Decidable (ambient.rand.isSome →
      p.protocolVersion = 51 → s.isWriting = true → s.mustDisconnect = true))
  | .sharedKey p, s => inferInstanceAs (Decidable (p.sharedSecret.length = 16 →
      s.mustDisconnect = true ∨ s.verifyToken ≠ p.verifyToken))
  | .clientInfo _, _ | .keepAlive, _ | .playerPosition _, _ => .isTrue trivial

/-- A step that queues packets in time, and no failing write. -/
def InTime (env : Environment κ) (s : Connection κ) : ConnectionEvent → Prop
  | .readCompleted bytes ambient => EachRead QueuesInTime env s (.readCompleted bytes ambient)
  | .addPacketToQueue _ => MayQueue s
  | .writeFailed _ => False
  | _ => True

instance (env : Environment κ) (s : Connection κ) : ∀ e : ConnectionEvent,
    Decidable (InTime env s e)
  | .readCompleted bytes ambient =>
      inferInstanceAs (Decidable (EachRead QueuesInTime env s (.readCompleted bytes ambient)))
  | .addPacketToQueue _ => inferInstanceAs (Decidable (MayQueue s))
  | .writeFailed _ => .isFalse id
  | .handleConnection _ | .readFailed | .writeCompleted | .sendKeepAlive _ | .kickPlayer _ =>
      .isTrue trivial

/-! ## The invariant -/

/-- What is in the queue waits for a write whose completion closes the socket. -/
def Waiting (s : Connection κ) : Prop :=
  s.queue = [] ∨ (s.isWriting = true ∧ MayQueue s)

def WaitingWhileOpen (s : Connection κ) : Prop := s.socket.isOpen = true → Waiting s

section Methods

variable {env : Environment κ} {s t : Connection κ}

theorem MayQueue.congr (h : MayQueue s) (hp : t.socket.pendingWrite = s.socket.pendingWrite)
    (hm : t.mustDisconnect = s.mustDisconnect) (hst : t.status = s.status) : MayQueue t := by
  unfold MayQueue ClosesOnWrite
  rw [hp, hm, hst]
  exact h

theorem MayQueue.of_mustDisconnect (h : s.mustDisconnect = true) : MayQueue s :=
  fun _ _ => .inl h

theorem Waiting.of_mustDisconnect (hw : s.isWriting = true) (h : s.mustDisconnect = true) :
    Waiting s :=
  .inr ⟨hw, .of_mustDisconnect h⟩

theorem Waiting.congr (h : Waiting s) (hq : t.queue = s.queue) (hw : t.isWriting = s.isWriting)
    (hp : t.socket.pendingWrite = s.socket.pendingWrite)
    (hm : t.mustDisconnect = s.mustDisconnect) (hst : t.status = s.status) : Waiting t := by
  rcases h with h | ⟨h, hc⟩
  · exact .inl (hq.trans h)
  · exact .inr ⟨hw.trans h, hc.congr hp hm hst⟩

theorem Waiting.usePlayer (f : Player → Player) (h : Waiting s) : Waiting (usePlayer f s) := by
  refine h.congr ?_ ?_ ?_ ?_ ?_
  all_goals simp

theorem Waiting.addPacketToQueue (p : Packet) (h : MayQueue s) :
    Waiting (addPacketToQueue env p s) := by
  by_cases hw : s.isWriting = true
  · rw [addPacketToQueue_of_busy env hw]
    exact .inr ⟨hw, h.congr rfl rfl rfl⟩
  · exact .inl (addPacketToQueue_queue_of_idle env (Bool.eq_false_iff.mpr hw) p)

theorem Waiting.disconnectWith (reason : UTF16String) : Waiting (disconnectWith env reason s) :=
  .of_mustDisconnect (disconnectWith_isWriting ..) rfl

theorem Waiting.disconnect (h : Waiting s) : Waiting (disconnect s) := by
  rcases h with h | ⟨h, _⟩
  · exact .inl h
  · exact .of_mustDisconnect h rfl

/-- A completed write leaves nothing behind unless it closes the socket. -/
theorem Waiting.writeCompleted {w : PendingWrite} (hw : s.socket.pendingWrite = some w)
    (hc : ¬ ClosesOnWrite w.bytes.length (completeWrite w s)) (h : Waiting s) :
    Waiting (handleWrite false w.bytes.length (completeWrite w s)) := by
  rw [handleWrite_of_not_closes hc]
  rcases h with h | ⟨_, h⟩
  · exact .inl h
  · exact absurd (h w hw) hc

/-! ## The handlers -/

theorem Waiting.pinged {ambient : Ambient} (p : ServerPingPacket)
    (hq : QueuesInTime ambient (.serverPing p) s) : Waiting (pinged env p s) := by
  by_cases hw : s.isWriting = true
  · rw [Connection.pinged, addPacketToQueue_of_busy env hw]
    refine .inr ⟨hw, ?_⟩
    intro w hmem
    rcases hq hw w hmem with hm | hlen
    · exact .inl hm
    · exact .inr ⟨hlen, rfl⟩
  · exact .inl (addPacketToQueue_queue_of_idle env (Bool.eq_false_iff.mpr hw) _)

theorem Waiting.versionChecked (p : ClientProtocolPacket) (h : Waiting s) :
    Waiting (versionChecked env p s) :=
  versionChecked_keeps Waiting.usePlayer (fun _ _ => .disconnectWith _) h

/-- The checked connection either is to be closed or is as it was. -/
theorem versionChecked_isWriting (p : ClientProtocolPacket) :
    (versionChecked env p s).mustDisconnect = true ∨ (p.protocolVersion = 51 ∧
      (versionChecked env p s).isWriting = s.isWriting) := by
  unfold versionChecked
  split_ifs with hv
  · exact .inl (by simp)
  · exact .inr ⟨not_not.mp hv, by simp⟩

theorem versionChecked_mustDisconnect (p : ClientProtocolPacket) (h : s.mustDisconnect = true) :
    (versionChecked env p s).mustDisconnect = true := by
  refine versionChecked_keeps (I := fun t => t.mustDisconnect = true) ?_ (fun _ _ => rfl) h
  intro t f ht
  rw [usePlayer_mustDisconnect, ht]

theorem Waiting.greeted {ambient : Ambient} {token : Vector Byte 4} (p : ClientProtocolPacket)
    (hrand : ambient.rand = some token) (hq : QueuesInTime ambient (.clientProtocol p) s) :
    Waiting (greeted env token p s) := by
  have hclosing : (Connection.versionChecked env p s).mustDisconnect = true →
      Waiting (Connection.greeted env token p s) := fun hm =>
    .of_mustDisconnect (addPacketToQueue_isWriting ..)
      ((addPacketToQueue_mustDisconnect ..).trans hm)
  rcases @versionChecked_isWriting κ env s p with hm | ⟨hv, hw⟩
  · exact hclosing hm
  · by_cases hs : s.isWriting = true
    · exact hclosing (versionChecked_mustDisconnect p (hq (by rw [hrand]; rfl) hv hs))
    · have hidle := hw.trans (Bool.eq_false_iff.mpr hs)
      exact .inl (addPacketToQueue_queue_of_idle env
        (s := { Connection.versionChecked env p s with verifyToken := token.toList }) hidle _)

theorem Waiting.tokenChecked (p : SharedKeyPacket) (h : Waiting s) :
    Waiting (tokenChecked p s) :=
  tokenChecked_keeps (fun _ => h.disconnect) h

theorem tokenChecked_mustDisconnect {p : SharedKeyPacket}
    (h : s.mustDisconnect = true ∨ s.verifyToken ≠ p.verifyToken) :
    (tokenChecked p s).mustDisconnect = true := by
  unfold tokenChecked
  split_ifs with hv
  · rfl
  · exact h.resolve_right hv

theorem Waiting.loggedIn {cipher : AESCipher κ} {p : SharedKeyPacket}
    (h : s.mustDisconnect = true ∨ s.verifyToken ≠ p.verifyToken) :
    Waiting (loggedIn env cipher p s) := by
  have hm : (Connection.loggedIn env cipher p s).mustDisconnect = true := by
    simp [Connection.loggedIn, tokenChecked_mustDisconnect h]
  exact .of_mustDisconnect (addPacketToQueue_isWriting ..) hm

end Methods

theorem waiting_readClosed (env : Environment κ) :
    ReadClosed env (WhenOpen QueuesInTime) (Waiting : Connection κ → Prop) where
  readBuffer _ h := h.congr rfl rfl rfl rfl rfl
  pendingRead _ h := h.congr rfl rfl rfl rfl rfl
  decryptCtx _ _ h := h.congr rfl rfl rfl rfl rfl
  emit _ h := h.congr rfl rfl rfl rfl rfl
  pinged _ hq _ := .pinged _ hq.2
  unseeded _ _ _ h := h.versionChecked _
  greeted _ hq hrand _ := .greeted _ hrand hq.2
  badKey _ _ _ h := h.tokenChecked _
  loggedIn _ hq hlen _ := .loggedIn (hq.2 hlen)
  informed _ h := (h.usePlayer _).congr rfl rfl rfl rfl rfl
  keptAlive _ h := h.congr rfl rfl rfl rfl rfl
  positioned _ h := (h.usePlayer _).congr rfl rfl rfl rfl rfl

theorem WaitingWhileOpen.step {env : Environment κ} {s t : Connection κ} {e : ConnectionEvent}
    (hg : InTime env s e) (hstep : step env s e = some t) (h : WaitingWhileOpen s) :
    WaitingWhileOpen t := by
  have hclosed := (waiting_readClosed env).whileOpen
  cases step_cases hstep with
  | handleConnection _ _ =>
      exact hclosed.startRead fun ho => (h ho).congr rfl rfl rfl rfl rfl
  | readCompleted _ _ => exact hclosed.readCompleted hg h
  | readFailed _ => exact hclosed.pendingRead false h
  | writeCompleted hw ho =>
      intro hopen
      exact (h ho).writeCompleted hw (isOpen_handleWrite_iff.mp hopen).2
  | writeFailed _ => exact hg.elim
  | sendKeepAlive =>
      apply sendKeepAlive_keeps
      · intro reason _
        exact .disconnectWith reason
      · intro ho
        exact (h ho).disconnect
      · exact h
  | kickPlayer => exact fun _ => .disconnectWith _
  | addPacketToQueue => exact fun _ => .addPacketToQueue _ hg

/-! ## The queue between writes -/

/-- In every run that queues packets in time, the queue is empty whenever no
write is in flight on the open socket. -/
theorem queue_empty_of_inTime_run {env : Environment κ} {now : Int} {es : List ConnectionEvent}
    {s : Connection κ} (run : GuardedRun (step env) (InTime env) (create now) es s)
    (hopen : s.socket.isOpen = true) (hidle : s.isWriting = false) : s.queue = [] := by
  have hinv : WaitingWhileOpen s :=
    run.invariant (fun _ _ _ hg hstep h => WaitingWhileOpen.step hg hstep h) fun _ => .inl rfl
  rcases hinv hopen with h | ⟨hw, _⟩
  · exact h
  · cases hidle.symm.trans hw

/-- A handshake, and one more packet between two writes. -/
def handshakeEvents : List ConnectionEvent :=
  [.handleConnection {},
    .readCompleted (ClientPacket.clientProtocol 51 [] [] 0).encode chainAmbient,
    .writeCompleted, .addPacketToQueue (.keepAlive ⟨7⟩), .writeCompleted]

/-- Both packets are gone when the second write has completed. -/
theorem queue_empty_of_inTime_run_handshake : ∃ s : Connection Byte,
    GuardedRun (step chainEnvironment) (InTime chainEnvironment) (create 0) handshakeEvents s ∧
      s.socket.isOpen = true ∧ s.isWriting = false ∧ s.queue = [] := by
  obtain ⟨s, hrun, hopen, hidle⟩ := exists_guardedRun
      (step chainEnvironment) (InTime chainEnvironment) (create 0) handshakeEvents
      (fun s => s.socket.isOpen = true ∧ s.isWriting = false) (by decide +kernel)
  exact ⟨s, hrun, hopen, hidle, queue_empty_of_inTime_run hrun hopen hidle⟩

/-- After an honest login two packets stay in the queue with no write in flight. -/
theorem login_strands_packets : ∃ s : Connection Byte,
    GuardedRun (step chainEnvironment) (fun _ e => Succeeds e) (create 0)
      [.handleConnection {},
        .readCompleted (ClientPacket.clientProtocol 51 [] [] 0).encode chainAmbient,
        .writeCompleted,
        .readCompleted (ClientPacket.sharedKey (List.replicate 16 7) [1, 2, 3, 4]).encode
          chainAmbient,
        .writeCompleted] s ∧
      s.socket.isOpen = true ∧ s.isWriting = false ∧
      s.queue = [.spawnPoint ⟨0, 0, 0⟩, .playerPosition {}] :=
  exists_guardedRun _ _ _ _ _ (by decide +kernel)

end CarpetSrv.Network.Connection
