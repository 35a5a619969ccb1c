import CarpetSrv.Network.PacketRound
import CarpetSrv.Network.RunInvariant

/-!
# Alive and reading

`running` is what the server asks before it keeps a player, and an outstanding
read is what a connection lives by. A disconnect clears `running` and leaves
the read outstanding, and the read that completes behind it posts the next
one. A read that fails leaves `running` set. The two agree along the runs in
which the connection is never disconnected and no read fails.

## Implementation notes

The runs start behind `handleConnection`. That a run disconnects nothing is
stated by what each event finds, since every call of `disconnect` has its own
reason.
-/

namespace CarpetSrv.Network.Connection

open Foundation Foundation.ExceptState Packet Utils

variable {κ : Type}

/-- The connection is marked alive exactly while a read is outstanding. -/
def AliveIffReading (s : Connection κ) : Prop :=
  s.running = true ↔ s.socket.pendingRead = true

/-- A read is posted or a packet is dispatched. -/
def IsServing : Effect → Prop
  | .readPosted .. | .dispatched _ => True
  | _ => False

/-- Behind a disconnect no read is posted and no packet is dispatched. -/
def SilentBehindDisconnect (s : Connection κ) : Prop :=
  ∀ before reason behind, s.trace = before ++ .disconnected reason :: behind →
    ∀ e ∈ behind, ¬ IsServing e

/-- The handshake and the shared key do not disconnect the client. -/
def Welcome (_ : Ambient) : HandledPacket → Connection κ → Prop
  | .clientProtocol p, _ => p.protocolVersion = 51
  | .sharedKey p, s => s.verifyToken = p.verifyToken
  | .serverPing _, _ | .clientInfo _, _ | .keepAlive, _ | .playerPosition _, _ => True

/-- The event neither disconnects the client nor fails a read. -/
def StaysConnected (env : Environment κ) (s : Connection κ) : ConnectionEvent → Prop
  | .readCompleted bytes ambient => EachRead Welcome env s (.readCompleted bytes ambient)
  | .readFailed | .kickPlayer _ => False
  | .writeCompleted => ∀ w ∈ s.socket.pendingWrite, w.bytes ≠ [] → s.status ≠ .ping
  | .sendKeepAlive now => now - s.lastActivity ≤ 20
  | .handleConnection _ | .writeFailed _ | .addPacketToQueue _ => True

/-! ## The invariant -/

def disconnection : Effect → Option (Option UTF16String)
  | .disconnected reason => some reason
  | _ => none

/-- The connection has never been disconnected. -/
structure Connected (s : Connection κ) : Prop where
  running : s.running = true
  unbound : s.mustDisconnect = false
  undisturbed : observe disconnection s = []

section Methods

variable {env : Environment κ} {s t : Connection κ}

theorem Connected.congr (h : Connected s) (hr : t.running = s.running)
    (hm : t.mustDisconnect = s.mustDisconnect)
    (hobs : observe disconnection t = observe disconnection s) : Connected t :=
  ⟨hr.trans h.running, hm.trans h.unbound, hobs.trans h.undisturbed⟩

theorem Connected.emit {e : Effect} (he : disconnection e = none) (h : Connected s) :
    Connected (emit e s) :=
  h.congr rfl rfl (observe_emit_none he s)

theorem Connected.addPacketToQueue (env : Environment κ) (p : Packet) (h : Connected s) :
    Connected (addPacketToQueue env p s) := by
  apply h.congr (addPacketToQueue_running ..) (addPacketToQueue_mustDisconnect ..)
  rw [observe_addPacketToQueue env p s fun _ _ => rfl]
  exact List.append_nil _

theorem Connected.usePlayer (f : Player → Player) (h : Connected s) : Connected (usePlayer f s) :=
  h.congr (usePlayer_running ..) (usePlayer_mustDisconnect ..) (observe_usePlayer f s rfl)

theorem Connected.versionChecked {p : ClientProtocolPacket} (hv : p.protocolVersion = 51)
    (h : Connected s) : Connected (versionChecked env p s) :=
  versionChecked_keeps Connected.usePlayer (fun _ hne => absurd hv hne) h

theorem Connected.tokenChecked {p : SharedKeyPacket} (hv : s.verifyToken = p.verifyToken)
    (h : Connected s) : Connected (tokenChecked p s) :=
  tokenChecked_keeps (fun hne => absurd hv hne) h

theorem Connected.setStatus (status : Status) (h : Connected s) :
    Connected { s with status := status } :=
  h.congr rfl rfl rfl

theorem Connected.pinged (p : ServerPingPacket) (h : Connected s) : Connected (pinged env p s) :=
  ((h.addPacketToQueue env _).setStatus .ping).emit rfl

theorem Connected.greeted (token : Vector Byte 4) {p : ClientProtocolPacket}
    (hv : p.protocolVersion = 51) (h : Connected s) : Connected (greeted env token p s) := by
  have hchecked : Connected
      { Connection.versionChecked env p s with verifyToken := token.toList } :=
    (h.versionChecked hv).congr rfl rfl rfl
  exact ((hchecked.addPacketToQueue env _).setStatus .login).emit rfl

theorem Connected.loggedIn (cipher : AESCipher κ) {p : SharedKeyPacket}
    (hv : s.verifyToken = p.verifyToken) (h : Connected s) :
    Connected (loggedIn env cipher p s) := by
  have hchecked : Connected { Connection.tokenChecked p s with cipher := some cipher } :=
    (h.tokenChecked hv).congr rfl rfl rfl
  have hinstalled : Connected (Connection.emit (.cipherInstalled p.sharedSecret) _) :=
    hchecked.emit rfl
  have hqueued := ((hinstalled.addPacketToQueue env (.login {})).addPacketToQueue env
    (.spawnPoint ⟨0, 0, 0⟩)).addPacketToQueue env (.playerPosition {})
  exact (hqueued.setStatus .play).emit rfl

theorem Connected.handleWrite {failed : Bool} {size : Nat}
    (hping : failed = false → size ≠ 0 → s.status ≠ .ping) (h : Connected s) :
    Connected (handleWrite failed size s) := by
  cases failed with
  | false =>
      have hc : ¬ ClosesOnWrite size s := by
        rintro (hm | ⟨hsize, hst⟩)
        · rw [h.unbound] at hm
          cases hm
        · exact hping rfl hsize hst
      rw [handleWrite_of_not_closes hc]
      exact h.congr rfl rfl rfl
  | true =>
      have hm : s.mustDisconnect = false := h.unbound
      have hw : Connection.handleWrite true size s = { s with isWriting := false } := by
        simp [Connection.handleWrite, hm]
      rw [hw]
      exact h.congr rfl rfl rfl

end Methods

theorem connected_readClosed (env : Environment κ) :
    ReadClosed env Welcome (Connected : Connection κ → Prop) where
  readBuffer _ h := h.congr rfl rfl rfl
  pendingRead _ h := h.congr rfl rfl rfl
  decryptCtx _ _ h := h.congr rfl rfl rfl
  emit {_ e} he h := h.emit (by cases e <;> first | rfl | cases he)
  pinged _ _ h := h.pinged _
  unseeded _ hq _ h := h.versionChecked hq
  greeted _ hq _ h := h.greeted _ hq
  badKey _ hq _ h := h.tokenChecked hq
  loggedIn _ hq _ h := h.loggedIn _ hq
  informed _ h := (h.usePlayer _).emit rfl
  keptAlive {a s} _ h := by
    have hnow : Connected { s with lastActivity := a.now } := h.congr rfl rfl rfl
    exact hnow.emit rfl
  positioned _ h := (h.usePlayer _).emit rfl

/-- The connection is alive and reads. -/
structure Serving (s : Connection κ) : Prop extends Connected s where
  reading : s.socket.pendingRead = true

theorem Serving.step {env : Environment κ} {s t : Connection κ} {e : ConnectionEvent}
    (hg : StaysConnected env s e) (hstep : step env s e = some t) (h : Serving s) : Serving t := by
  have hc := h.toConnected
  cases step_cases hstep with
  | handleConnection _ _ => exact ⟨(connected_readClosed env).startRead (hc.congr rfl rfl rfl), rfl⟩
  | readCompleted _ _ => exact ⟨(connected_readClosed env).readCompleted hg hc, rfl⟩
  | readFailed _ => exact hg.elim
  | @writeCompleted w hw _ =>
      have hdone : Connected { s with socket := { s.socket with pendingWrite := none } } :=
        hc.congr rfl rfl rfl
      have hcompleted : Connected (completeWrite w s) := hdone.emit rfl
      refine ⟨hcompleted.handleWrite fun _ hsize => ?_,
        (handleWrite_pendingRead ..).trans h.reading⟩
      exact hg w hw (List.ne_nil_of_length_pos (Nat.pos_of_ne_zero hsize))
  | writeFailed _ =>
      have hw : Connected { s with socket := { s.socket with pendingWrite := none } } :=
        hc.congr rfl rfl rfl
      exact ⟨hw.handleWrite nofun, (handleWrite_pendingRead ..).trans h.reading⟩
  | @sendKeepAlive now =>
      have hintime : ¬ now - s.lastActivity > 20 := Int.not_lt.mpr hg
      rw [sendKeepAlive, if_neg hintime]
      exact h
  | kickPlayer => exact hg.elim
  | addPacketToQueue =>
      exact ⟨hc.addPacketToQueue _ _, (addPacketToQueue_pendingRead ..).trans h.reading⟩

theorem Connected.silent {s : Connection κ} (h : Connected s) : SilentBehindDisconnect s := by
  intro before reason behind hs
  have hmem : reason ∈ observe disconnection s :=
    mem_observe.mpr ⟨.disconnected reason, by simp [hs], rfl⟩
  rw [h.undisturbed] at hmem
  cases hmem

/-- Behind `handleConnection`, in every run that neither disconnects the client
nor fails a read, the connection is alive exactly while it reads, and nothing
is read or dispatched behind a disconnect. -/
theorem alive_iff_reading_of_run {env : Environment κ} {player : Player} {now : Int}
    {es : List ConnectionEvent} {s : Connection κ}
    (run : GuardedRun (step env) (StaysConnected env) (opened player now) es s) :
    AliveIffReading s ∧ SilentBehindDisconnect s := by
  have hs : Serving s :=
    run.invariant (fun _ _ _ hg hstep h => Serving.step hg hstep h) ⟨⟨rfl, rfl, rfl⟩, rfl⟩
  exact ⟨iff_of_true hs.running hs.reading, hs.silent⟩

instance (ambient : Ambient) : ∀ (p : HandledPacket) (s : Connection κ),
    Decidable (Welcome ambient p s)
  | .clientProtocol p, _ => inferInstanceAs (Decidable (p.protocolVersion = 51))
  | .sharedKey p, s => inferInstanceAs (Decidable (s.verifyToken = p.verifyToken))
  | .serverPing _, _ | .clientInfo _, _ | .keepAlive, _ | .playerPosition _, _ => .isTrue trivial

instance (env : Environment κ) (s : Connection κ) : ∀ e : ConnectionEvent,
    Decidable (StaysConnected env s e)
  | .readCompleted bytes ambient =>
      inferInstanceAs (Decidable (EachRead Welcome env s (.readCompleted bytes ambient)))
  | .readFailed | .kickPlayer _ => .isFalse id
  | .writeCompleted => inferInstanceAs
      (Decidable (∀ w ∈ s.socket.pendingWrite, w.bytes ≠ [] → s.status ≠ .ping))
  | .sendKeepAlive now => inferInstanceAs (Decidable (now - s.lastActivity ≤ 20))
  | .handleConnection _ | .writeFailed _ | .addPacketToQueue _ => .isTrue trivial

/-- A login with a completed write and a tick in time. -/
theorem alive_iff_reading_of_run_login : ∃ s : Connection Byte,
    GuardedRun (step chainEnvironment) (StaysConnected chainEnvironment) (opened {} 0)
      ((loginEvents 51 [1, 2, 3, 4]).tail ++ [.writeCompleted, .sendKeepAlive 20]) s ∧
      s.status = .play ∧ AliveIffReading s := by
  obtain ⟨s, hrun, hs⟩ := exists_guardedRun (step chainEnvironment)
    (StaysConnected chainEnvironment) (opened {} 0)
    ((loginEvents 51 [1, 2, 3, 4]).tail ++ [.writeCompleted, .sendKeepAlive 20])
    (fun s => s.status = .play) (by decide +kernel)
  exact ⟨s, hrun, hs, (alive_iff_reading_of_run hrun).1⟩

theorem not_silent {s : Connection κ} {reason : Option UTF16String} {e : Effect}
    (h : [.disconnected reason, e].Sublist s.trace) (he : IsServing e) :
    ¬ SilentBehindDisconnect s := by
  intro hsilent
  obtain ⟨front, back, hs, hd, htail⟩ := List.cons_sublist_iff.mp h
  obtain ⟨before, middle, rfl⟩ := List.append_of_mem hd
  have hmem : e ∈ middle ++ back := List.mem_append_right _ (List.singleton_sublist.mp htail)
  exact hsilent before reason (middle ++ back) (by simp [hs]) e hmem he

/-- A kicked connection keeps reading and dispatching, and one whose read has
failed stays alive. -/
theorem alive_without_reading :
    (∃ s : Connection Byte,
      GuardedRun (step chainEnvironment) Unguarded (opened {} 0)
        [.kickPlayer [0x62], .readCompleted [0x00] chainAmbient] s ∧
      ¬ AliveIffReading s ∧ ¬ SilentBehindDisconnect s) ∧
    ∃ s : Connection Byte,
      GuardedRun (step chainEnvironment) Unguarded (opened {} 0) [.readFailed] s ∧
      ¬ AliveIffReading s := by
  constructor
  · obtain ⟨s, hrun, hr, hp, hsub⟩ := exists_guardedRun (step chainEnvironment) Unguarded
      (opened {} 0) [.kickPlayer [0x62], .readCompleted [0x00] chainAmbient]
      (fun s => s.running = false ∧ s.socket.pendingRead = true ∧
        [Effect.disconnected (some [0x62]), .dispatched 0x00].Sublist s.trace) (by decide +kernel)
    exact ⟨s, hrun, by simp [AliveIffReading, hr, hp], not_silent hsub trivial⟩
  · obtain ⟨s, hrun, hr, hp⟩ := exists_guardedRun (step chainEnvironment) Unguarded (opened {} 0)
      [.readFailed] (fun s => s.running = true ∧ s.socket.pendingRead = false) (by decide +kernel)
    exact ⟨s, hrun, by simp [AliveIffReading, hr, hp]⟩

end CarpetSrv.Network.Connection
