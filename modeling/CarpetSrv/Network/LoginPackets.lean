import CarpetSrv.Network.LoginCompletion
import CarpetSrv.Network.OutgoingStream

/-!
# What a login sends

The key handler queues three packets one after the other. The first of them is
written at once only if no write is in flight, and nothing writes the rest, as
long as nobody queues another packet. A client that logs in undisturbed
therefore gets the login packet only if the answer to its handshake had been
written before its key was handled, and it gets no spawn point and no position.

## Implementation notes

The queue, the handed packets and the bytes are computed on the batch writer
of the connection, whose operations the two handlers are.
-/

namespace CarpetSrv.Network

open Foundation Packet Utils Connection

variable {κ : Type}

/-- A write is reported complete. -/
def Delivery.completesWrite : Delivery → Bool
  | .between .writeCompleted => true
  | _ => false

namespace Connection

/-! ## The handlers on the batch writer -/

section Writer

variable {env : Environment κ} {s t : Connection κ} {p : ClientPacket}

theorem writer_install (key : List Byte) (hk : observe installedKey s = []) :
    writer (emit (.cipherInstalled key) { s with cipher := some (cipherOf env key) }) =
      BatchWriter.install env.evp key (writer s) := by
  refine BatchWriter.ext rfl rfl rfl ?_ ?_ ?_ ?_ ?_
  · exact observe_emit_none rfl _
  · exact congrArg List.flatten (observe_emit_none rfl _)
  · exact congrArg List.flatten (observe_emit_none rfl _)
  · exact congrArg List.head? ((observe_emit_some (f := installedKey) (e := .cipherInstalled key)
      rfl _).trans (congrArg (· ++ [key]) hk))
  · exact enqueuedBeforeCipher_emit rfl _

theorem writer_receive (bytes : List Byte) (s : Connection κ) :
    writer (receive bytes s) = writer s :=
  writer_emit rfl _

theorem writer_consumed (p : ClientPacket) (s : Connection κ) :
    writer (consumed p s) = writer s := by
  have hid : writer (entered p.id s) = writer s :=
    writer_emit rfl { s with readBuffer := s.readBuffer.advance 1 }
  exact hid

theorem Outgoing.consumed (p : ClientPacket) (bytes : List Byte) (h : Outgoing env s) :
    Outgoing env (consumed p (receive bytes s)) :=
  h.congr ((writer_consumed p _).trans (writer_receive bytes s)) rfl rfl rfl

theorem writer_startRead (s : Connection κ) : writer (startRead s) = writer s :=
  writer_emit rfl _

/-- Greeting a client is queueing the packet of authentication data. -/
theorem writer_greeted (token : Vector Byte 4) {p : ClientProtocolPacket}
    (hv : p.protocolVersion = 51) (h : Outgoing env s) :
    writer (greeted env token p s) =
      BatchWriter.enqueue (output env.keypair) env.evp (.serverAuthData ⟨token.toList⟩)
        (writer s) := by
  let named := { usePlayer (Player.setUsername p.username) s with verifyToken := token.toList }
  have hnamed : Outgoing env named := (h.usePlayer _).congr rfl rfl rfl rfl
  calc
    writer (greeted env token p s) =
        writer (addPacketToQueue env (.serverAuthData ⟨token.toList⟩) named) := by
      rw [greeted, versionChecked_of_eq hv]
      exact writer_emit rfl _
    _ = BatchWriter.enqueue (output env.keypair) env.evp (.serverAuthData ⟨token.toList⟩)
        (writer named) := (writer_addPacketToQueue env _ hnamed.synced).1
    _ = _ := congrArg _ (writer_usePlayer _ s)

/-- Accepting a key is installing it and queueing three packets. -/
theorem writer_loggedIn {p : SharedKeyPacket} (ht : s.verifyToken = p.verifyToken)
    (hk : observe installedKey s = []) (h : Outgoing env s) :
    writer (loggedIn env (cipherOf env p.sharedSecret) p s) =
      BatchWriter.enqueue (output env.keypair) env.evp (.playerPosition {})
        (BatchWriter.enqueue (output env.keypair) env.evp (.spawnPoint ⟨0, 0, 0⟩)
          (BatchWriter.enqueue (output env.keypair) env.evp (.login {})
            (BatchWriter.install env.evp p.sharedSecret (writer s)))) := by
  have hkeyed := h.install p.sharedSecret hk
  have hlogin := hkeyed.addPacketToQueue (.login {})
  have hspawn := hlogin.addPacketToQueue (.spawnPoint ⟨0, 0, 0⟩)
  rw [loggedIn, tokenChecked_of_eq ht, ← writer_install p.sharedSecret hk,
    ← (writer_addPacketToQueue env _ hkeyed.synced).1,
    ← (writer_addPacketToQueue env _ hlogin.synced).1,
    ← (writer_addPacketToQueue env _ hspawn.synced).1]
  exact writer_emit rfl _

/-- Between two packets, the writer at most completes the batch on its way. -/
theorem writer_between {token : Vector Byte 4} {e : ConnectionEvent}
    (hstay : s.mustDisconnect = false) (hst : s.status ≠ .ping)
    (hu : Undisturbed token s (.between e)) (hok : Succeeds e)
    (hstep : deliver env s (.between e) = some t) :
    writer t = if (Delivery.between e).completesWrite then BatchWriter.complete (writer s)
      else writer s := by
  cases step_cases hstep with
  | handleConnection _ _ => cases hu
  | readCompleted _ _ => cases hu
  | readFailed _ => cases hu
  | kickPlayer => cases hu
  | addPacketToQueue => cases hu
  | writeFailed _ => cases hok
  | @writeCompleted w _ _ =>
      have hopen : ¬ ClosesOnWrite w.bytes.length (completeWrite w s) := by
        rintro (hm | ⟨_, hp⟩)
        · cases hstay.symm.trans hm
        · exact hst hp
      rw [handleWrite_of_not_closes hopen]
      exact writer_emit (e := .writeCompleted w.batch) rfl
        { s with socket := { s.socket with pendingWrite := none } }
  | @sendKeepAlive now =>
      have hlate : ¬ now - s.lastActivity > 20 := Int.not_lt.mpr hu
      rw [sendKeepAlive, if_neg hlate]
      rfl

end Writer

/-! ## Runs -/

section Run

variable {env : Environment κ} {s t : Connection κ} {l : Login} {token : Vector Byte 4}
  {secret : List Byte} {player : Player} {ds : List Delivery}

/-- Nothing disturbs the login, and no write fails. -/
def Smooth (token : Vector Byte 4) (s : Connection κ) (d : Delivery) : Prop :=
  Undisturbed token s d ∧ Succeeds d.event

instance (token : Vector Byte 4) (s : Connection κ) (d : Delivery) : Decidable (Smooth token s d) :=
  inferInstanceAs (Decidable (_ ∧ _))

/-- The writer behind the answer to the handshake. -/
def answering (env : Environment κ) (token : Vector Byte 4) :
    BatchWriter Packet Byte (List Byte) κ :=
  BatchWriter.enqueue (output env.keypair) env.evp (.serverAuthData ⟨token.toList⟩) {}

/-- The writer behind these deliveries, the handshake among them. -/
def writerBehind (env : Environment κ) (token : Vector Byte 4) (past : List Delivery) :
    BatchWriter Packet Byte (List Byte) κ :=
  if past.flatMap Delivery.packets = [] then {}
  else if past.any Delivery.completesWrite then BatchWriter.complete (answering env token)
  else answering env token

/-- What holds up to the key packet. -/
structure Awaiting (env : Environment κ) (token : Vector Byte 4) (l : Login) (player : Player)
    (past : List Delivery) (s : Connection κ) : Prop where
  ready : ReadReady s
  outgoing : OutgoingWhileOpen env s
  standing : standing s = if past.flatMap Delivery.packets = [] then .opened player
    else .greeted token l player
  writer : writer s = writerBehind env token past
  unwritten : past.flatMap Delivery.packets = [] → past.any Delivery.completesWrite = false

theorem Awaiting.isOpen {past : List Delivery} (h : Awaiting env token l player past s) :
    s.socket.isOpen = true := by
  have hopen : s.socket.isOpen = (Connection.standing s).isOpen := rfl
  rw [hopen, h.standing]
  split_ifs <;> rfl

theorem Awaiting.of_opened (env : Environment κ) (token : Vector Byte 4) (l : Login)
    (player : Player) (now : Int) : Awaiting env token l player [] (opened player now) where
  ready := .startRead (Nat.zero_le _)
  outgoing := by
    apply (outgoing_readClosed env).startRead
    exact ⟨fun ho => ((OutgoingWhileOpen.of_create env now).1 ho).congr rfl rfl rfl rfl,
      (OutgoingWhileOpen.of_create env now).2⟩
  standing := rfl
  writer := rfl
  unwritten _ := rfl

/-- A write that completes was on its way. -/
theorem inFlight_of_completesWrite {d : Delivery} (hd : d.completesWrite = true)
    (hstep : deliver env s d = some t) : (writer s).inFlight ≠ none := by
  cases d with
  | packet p ambient => cases hd
  | between e =>
      cases e with
      | writeCompleted =>
          cases step_cases hstep with
          | writeCompleted hw _ => simp [Connection.writer, hw]
      | _ => cases hd

/-- An event up to the key packet that delivers no packet. -/
theorem Awaiting.between {past : List Delivery} {e : ConnectionEvent}
    (h : Awaiting env token l player past s) (hu : Smooth token s (.between e))
    (hstep : deliver env s (.between e) = some t) :
    Awaiting env token l player (past ++ [.between e]) t := by
  have hpackets : (past ++ [Delivery.between e]).flatMap Delivery.packets =
      past.flatMap Delivery.packets := by
    rw [List.flatMap_append, List.flatMap_singleton]
    exact List.append_nil _
  have hany : (past ++ [Delivery.between e]).any Delivery.completesWrite =
      (past.any Delivery.completesWrite || (Delivery.between e).completesWrite) := by
    rw [List.any_append, List.any_cons, List.any_nil, Bool.or_false]
  have hmust : s.mustDisconnect = (Connection.standing s).mustDisconnect := rfl
  have hstatus : s.status = (Connection.standing s).status := rfl
  have hstay : s.mustDisconnect = false := by
    rw [hmust, h.standing]
    split_ifs <;> rfl
  have hst : s.status ≠ .ping := by
    rw [hstatus, h.standing]
    split_ifs <;> nofun
  have hwriter := writer_between hstay hst hu.1 hu.2 hstep
  have hearly : past.flatMap Delivery.packets = [] →
      (Delivery.between e).completesWrite = false := by
    intro hnil
    by_contra hne
    apply inFlight_of_completesWrite (Bool.not_eq_false _ ▸ hne) hstep
    rw [h.writer, writerBehind, if_pos hnil]
  refine ⟨h.ready.step hstep, h.outgoing.step hu.2 hstep, ?_, ?_, ?_⟩
  · rw [standing_between hstay hst hu.1 hstep, hpackets, h.standing]
  · rw [hwriter, h.writer, writerBehind, writerBehind, hpackets, hany]
    by_cases hnil : past.flatMap Delivery.packets = []
    · rw [if_pos hnil, if_pos hnil, hearly hnil]
      rfl
    · rw [if_neg hnil, if_neg hnil]
      cases past.any Delivery.completesWrite <;> cases (Delivery.between e).completesWrite <;> rfl
  · intro hnil
    rw [hpackets] at hnil
    rw [hany, h.unwritten hnil, hearly hnil]
    rfl

/-- The handshake is answered at once. -/
theorem Awaiting.greeted {past : List Delivery} {ambient : Ambient}
    (ha : l.Answers env token secret) (h : Awaiting env token l player past s)
    (hpast : past.flatMap Delivery.packets = [])
    (hu : Smooth token s (.packet l.handshake ambient))
    (hstep : deliver env s (.packet l.handshake ambient) = some t) :
    Awaiting env token l player (past ++ [.packet l.handshake ambient]) t := by
  have hpackets :
      (past ++ [Delivery.packet l.handshake ambient]).flatMap Delivery.packets ≠ [] := by
    rw [List.flatMap_append, hpast]
    exact List.cons_ne_nil _ _
  have hany : (past ++ [Delivery.packet l.handshake ambient]).any Delivery.completesWrite =
      false := by
    rw [List.any_append, h.unwritten hpast]
    rfl
  have hopened : Connection.standing s = .opened player := by rw [h.standing, if_pos hpast]
  obtain ⟨hend, hstanding⟩ := greeted_of_opened ha hu.1 h.ready hopened hstep
  have hout := (h.outgoing.1 h.isOpen).consumed l.handshake l.handshake.encode
  refine ⟨h.ready.step hstep, h.outgoing.step hu.2 hstep, ?_, ?_, fun hnil => absurd hnil hpackets⟩
  · rw [hstanding, if_neg hpackets]
  · have hidle : Connection.writer s = {} := by rw [h.writer, writerBehind, if_pos hpast]
    rw [hend, writer_startRead, writer_greeted token rfl hout, writer_consumed, writer_receive,
      hidle, writerBehind, if_neg hpackets, hany]
    rfl

/-- The deliveries up to the key packet. -/
theorem awaiting_of_run {now : Int} {before : List Delivery} (ha : l.Answers env token secret)
    (run : GuardedRun (deliver env) (Smooth token) (opened player now) before s)
    (hb : before.flatMap Delivery.packets = [l.handshake]) :
    Awaiting env token l player before s := by
  have hall : ∀ rest, before.flatMap Delivery.packets ++ rest = [l.handshake] →
      Awaiting env token l player before s := by
    apply run.invariant_history (I := fun past s => ∀ rest,
      past.flatMap Delivery.packets ++ rest = [l.handshake] →
        Awaiting env token l player past s)
    · intro past s d t hu hstep h rest hrest
      rw [List.flatMap_append, List.flatMap_singleton] at hrest
      cases d with
      | between e => exact (h rest (by simpa [Delivery.packets] using hrest)).between hu hstep
      | packet p ambient =>
          rw [List.append_assoc] at hrest
          obtain ⟨hpast, hp⟩ := List.append_eq_singleton_iff.mp hrest |>.resolve_right
            (fun hc => List.cons_ne_nil _ _ hc.2)
          obtain ⟨rfl, _⟩ := List.cons.inj hp
          exact (h [l.handshake] (by rw [hpast]; rfl)).greeted ha hpast hu hstep
    · intro _ _
      exact .of_opened env token l player now
  exact hall [] (by rw [hb, List.append_nil])

/-- The writer behind the key packet. -/
def accepting (env : Environment κ) (secret : List Byte)
    (w : BatchWriter Packet Byte (List Byte) κ) : BatchWriter Packet Byte (List Byte) κ :=
  BatchWriter.enqueue (output env.keypair) env.evp (.playerPosition {})
    (BatchWriter.enqueue (output env.keypair) env.evp (.spawnPoint ⟨0, 0, 0⟩)
      (BatchWriter.enqueue (output env.keypair) env.evp (.login {})
        (BatchWriter.install env.evp secret w)))

/-- What was handed over and what is queued, and nothing more is to come. -/
structure Stranded (env : Environment κ) (token : Vector Byte 4) (secret : List Byte)
    (written : Bool) (w : BatchWriter Packet Byte (List Byte) κ) : Prop where
  handed : w.handed =
    .serverAuthData ⟨token.toList⟩ :: if written then [.login {}] else []
  queue : w.queue =
    (if written then [] else [.login {}]) ++ [.spawnPoint ⟨0, 0, 0⟩, .playerPosition {}]
  bytes : w.bytes = output env.keypair (.serverAuthData ⟨token.toList⟩) ++
    if written then
      (env.evp.encrypt (env.evp.encryptInit secret) (output env.keypair (.login {}))).1
    else []

theorem Stranded.complete {written : Bool} {w : BatchWriter Packet Byte (List Byte) κ}
    (h : Stranded env token secret written w) :
    Stranded env token secret written (BatchWriter.complete w) :=
  ⟨h.handed, h.queue, h.bytes⟩

/-- With a write on its way the three packets stay in the queue, and without
one the first of them is sent. -/
theorem stranded_accepting (written : Bool) :
    Stranded env token secret written (accepting env secret
      (if written then BatchWriter.complete (answering env token) else answering env token)) := by
  cases written with
  | false =>
      refine ⟨rfl, rfl, ?_⟩
      simp [accepting, answering, BatchWriter.enqueue, BatchWriter.install, BatchWriter.push,
        BatchWriter.post, BatchWriter.send]
  | true =>
      refine ⟨rfl, rfl, ?_⟩
      simp [accepting, answering, BatchWriter.enqueue, BatchWriter.install, BatchWriter.push,
        BatchWriter.post, BatchWriter.send, BatchWriter.complete]

/-- The key packet is handled. -/
theorem Awaiting.accepted {past : List Delivery} {ambient : Ambient}
    (ha : l.Answers env token secret)
    (hlt : l.handshake.encode.length < l.sharedKey.encode.length)
    (h : Awaiting env token l player past s)
    (hpast : past.flatMap Delivery.packets = [l.handshake])
    (hstep : deliver env s (.packet l.sharedKey ambient) = some t) :
    Connection.standing t = .loggedIn env token secret l player ∧
      Stranded env token secret (past.any Delivery.completesWrite) (Connection.writer t) := by
  have hne : past.flatMap Delivery.packets ≠ [] := by
    rw [hpast]
    exact List.cons_ne_nil _ _
  have hgreeted : Connection.standing s = .greeted token l player := by
    rw [h.standing, if_neg hne]
  obtain ⟨hend, hstanding⟩ := loggedIn_of_greeted ha h.ready hgreeted hlt hstep
  have hout := (h.outgoing.1 h.isOpen).consumed l.sharedKey l.sharedKey.encode
  have htoken : (consumed l.sharedKey (receive l.sharedKey.encode s)).verifyToken = token.toList :=
    congrArg Standing.verifyToken hgreeted
  have hst : s.status = .login := congrArg Standing.status hgreeted
  have hkey : observe installedKey (consumed l.sharedKey (receive l.sharedKey.encode s)) = [] := by
    have hnone := h.outgoing.2 (by rw [hst]; decide)
    exact (observe_emit_none rfl _).trans ((observe_emit_none rfl _).trans hnone)
  refine ⟨hstanding, ?_⟩
  have hwriter : Connection.writer t = accepting env secret (Connection.writer s) := by
    rw [hend, writer_startRead, ← writer_receive l.sharedKey.encode s,
      ← writer_consumed l.sharedKey (receive l.sharedKey.encode s)]
    exact writer_loggedIn (p := ⟨secret, token.toList⟩) htoken hkey hout
  rw [hwriter, h.writer, writerBehind, if_neg hne]
  exact stranded_accepting _

/-- Behind the key packet nothing is sent and nothing is queued. -/
theorem stranded_of_run {written : Bool} {behind : List Delivery}
    (run : GuardedRun (deliver env) (Smooth token) s behind t)
    (hr : behind.flatMap Delivery.packets = [])
    (hs : Connection.standing s = .loggedIn env token secret l player)
    (h : Stranded env token secret written (Connection.writer s)) :
    Connection.standing t = .loggedIn env token secret l player ∧
      Stranded env token secret written (Connection.writer t) := by
  induction run with
  | refl s => exact ⟨hs, h⟩
  | @cons s m t d ds hu hstep _ ih =>
      rw [List.flatMap_cons] at hr
      obtain ⟨hd, hds⟩ := List.append_eq_nil_iff.mp hr
      cases d with
      | packet p ambient => cases hd
      | between e =>
          have hstay : s.mustDisconnect = false := congrArg Standing.mustDisconnect hs
          have hst : s.status ≠ .ping := by
            have hplay : s.status = .play := congrArg Standing.status hs
            rw [hplay]
            decide
          apply ih hds
          · rw [standing_between hstay hst hu.1 hstep, hs]
          · rw [writer_between hstay hst hu.1 hu.2 hstep]
            split_ifs
            · exact h.complete
            · exact h

/-- A client that logs in undisturbed gets the login packet exactly if the
answer to its handshake was written before its key was handled. The spawn
point and the position stay in the queue. -/
theorem login_packets_stranded {now : Int} {before behind : List Delivery} {ambient : Ambient}
    (ha : l.Answers env token secret)
    (hlt : l.handshake.encode.length < l.sharedKey.encode.length)
    (run : GuardedRun (deliver env) (Smooth token) (opened player now)
      (before ++ .packet l.sharedKey ambient :: behind) t)
    (hb : before.flatMap Delivery.packets = [l.handshake])
    (hr : behind.flatMap Delivery.packets = []) :
    t.status = .play ∧
      handedPackets t = .serverAuthData ⟨token.toList⟩ ::
        (if before.any Delivery.completesWrite then [.login {}] else []) ∧
      t.queue = (if before.any Delivery.completesWrite then [] else [.login {}]) ++
        [.spawnPoint ⟨0, 0, 0⟩, .playerPosition {}] ∧
      handedBytes t = output env.keypair (.serverAuthData ⟨token.toList⟩) ++
        if before.any Delivery.completesWrite then
          (env.evp.encrypt (env.evp.encryptInit secret) (output env.keypair (.login {}))).1
        else [] := by
  obtain ⟨m, hfirst, hlast⟩ := run.split
  cases hlast with
  | cons _ hstep hrest =>
      obtain ⟨hstanding, hstranded⟩ := (awaiting_of_run ha hfirst hb).accepted ha hlt hb hstep
      obtain ⟨hplays, hend⟩ := stranded_of_run hrest hr hstanding hstranded
      exact ⟨congrArg Standing.status hplays, hend.handed, hend.queue, hend.bytes⟩

end Run

/-- The answer to the handshake is written first, and the login packet follows. -/
theorem login_packets_stranded_written : ∃ t : Connection Byte,
    GuardedRun (deliver chainEnvironment) (Smooth #v[1, 2, 3, 4]) (opened {} 0)
        (chainDeliveries (chainLogin [0x61]) ++ [.between .writeCompleted]) t ∧
      t.status = .play ∧ t.queue = [.spawnPoint ⟨0, 0, 0⟩, .playerPosition {}] := by
  obtain ⟨t, hrun, _⟩ := exists_guardedRun (deliver chainEnvironment) (Smooth #v[1, 2, 3, 4])
    (opened {} 0) (chainDeliveries (chainLogin [0x61]) ++ [.between .writeCompleted])
    (fun _ => True) (by decide +kernel)
  have ha : (chainLogin [0x61]).Answers chainEnvironment #v[1, 2, 3, 4] (List.replicate 16 7) :=
    chainLogin_answers (by decide)
  have hsplit : chainDeliveries (chainLogin [0x61]) ++ [.between .writeCompleted] =
      [.packet (chainLogin [0x61]).handshake chainAmbient, .between .writeCompleted,
        .between (.sendKeepAlive 20)] ++
      .packet (chainLogin [0x61]).sharedKey chainAmbient :: [.between .writeCompleted] := rfl
  obtain ⟨hplay, _, hqueue, _⟩ :=
    login_packets_stranded ha (by decide) (hsplit ▸ hrun) rfl rfl
  exact ⟨t, hrun, hplay, hqueue⟩

end Connection

end CarpetSrv.Network
