import CarpetSrv.Network.LoginStateMachine
import CarpetSrv.Network.PacketDelivery

/-!
# Whether a login completes

A client shakes hands and answers with its key, and each of its two packets
arrives in one read completion. The loop of `process_packets` compares an index
into the vector with the number of bytes of the read, so the key packet is
noticed exactly when it is longer than the handshake. A client that gives a
long name for the server stays in LOGIN until it is timed out.

## Implementation notes

`standing` is what the login depends on. Between the two packets writes may
complete or fail and the server may tick, as long as no tick finds the
connection idle for more than 20 seconds.
-/

namespace CarpetSrv.Network

open Foundation Foundation.ExceptState Foundation.BoundedLoop Packet Utils Buffer

variable {κ : Type}

/-- What a client sends to log in, as it stands on the wire. -/
structure Login where
  username : List Short
  serverHost : List Short
  serverPort : CInt
  encryptedSharedSecret : List Byte
  encryptedVerifyToken : List Byte

namespace Login

def handshake (l : Login) : ClientPacket :=
  .clientProtocol 51 l.username l.serverHost l.serverPort

def sharedKey (l : Login) : ClientPacket :=
  .sharedKey l.encryptedSharedSecret l.encryptedVerifyToken

/-- The packets are well formed, and the second one brings back the token and
a secret under the key of the server. -/
structure Answers (env : Environment κ) (token : Vector Byte 4) (secret : List Byte)
    (l : Login) : Prop where
  handshake : l.handshake.WellFormed
  sharedKey : l.sharedKey.WellFormed
  keySize : secret.length = 16
  secret_eq : env.keypair.decryptWithPrivateKey l.encryptedSharedSecret = some secret
  token_eq : env.keypair.decryptWithPrivateKey l.encryptedVerifyToken = some token.toList

end Login

namespace Connection

/-- Nobody kicks, no packet is queued from outside, and no tick finds the
connection idle for too long. `RAND_bytes` answers with this token. -/
def Undisturbed (token : Vector Byte 4) (s : Connection κ) : Delivery → Prop
  | .packet _ ambient => ambient.rand = some token
  | .between (.sendKeepAlive now) => now - s.lastActivity ≤ 20
  | .between .writeCompleted | .between (.writeFailed _) => True
  | .between _ => False

instance (token : Vector Byte 4) (s : Connection κ) : ∀ d : Delivery,
    Decidable (Undisturbed token s d)
  | .packet _ _ => inferInstanceAs (Decidable (_ = _))
  | .between (.sendKeepAlive _) => inferInstanceAs (Decidable (_ ≤ _))
  | .between .writeCompleted | .between (.writeFailed _) => .isTrue trivial
  | .between (.handleConnection _) | .between (.readCompleted _ _) | .between .readFailed
  | .between (.kickPlayer _) | .between (.addPacketToQueue _) => .isFalse id

/-- What the login depends on. -/
structure Standing (κ : Type) where
  running : Bool := true
  mustDisconnect : Bool := false
  isOpen : Bool := true
  status : Status
  readPos : Nat
  player : Option Player
  verifyToken : List Byte
  decryptCtx : Option κ
  events : List LoginEvent

def standing (s : Connection κ) : Standing κ where
  running := s.running
  mustDisconnect := s.mustDisconnect
  isOpen := s.socket.isOpen
  status := s.status
  readPos := s.readBuffer.readPos
  player := s.player
  verifyToken := s.verifyToken
  decryptCtx := s.cipher.map AESCipher.decryptCtx
  events := observe loginEvent s

/-- The first read is posted. -/
def Standing.opened (player : Player) : Standing κ where
  status := .handshake
  readPos := 0
  player := some player
  verifyToken := []
  decryptCtx := none
  events := []

/-- The handshake is answered. -/
def Standing.greeted (token : Vector Byte 4) (l : Login) (player : Player) : Standing κ where
  status := .login
  readPos := l.handshake.encode.length
  player := some (player.setUsername (l.username.map (BitVec.setWidth 8)))
  verifyToken := token.toList
  decryptCtx := none
  events := [.queued (.serverAuthData ⟨token.toList⟩)]

/-- The key is accepted. -/
def Standing.loggedIn (env : Environment κ) (token : Vector Byte 4) (secret : List Byte)
    (l : Login) (player : Player) : Standing κ where
  status := .play
  readPos := nextPosition (l.handshake.encode.length + l.sharedKey.encode.length)
  player := some (player.setUsername (l.username.map (BitVec.setWidth 8)))
  verifyToken := token.toList
  decryptCtx := some (env.evp.decryptInit secret)
  events := [.queued (.serverAuthData ⟨token.toList⟩), .installed secret, .queued (.login {}),
    .queued (.spawnPoint ⟨0, 0, 0⟩), .queued (.playerPosition {})]

/-! ## What changes a standing -/

/-- The standing when one more effect is recorded. -/
def Standing.record (v : Standing κ) (e : Effect) : Standing κ :=
  { v with events := v.events ++ (loginEvent e).toList }

section Methods

variable {env : Environment κ} {s t : Connection κ}

theorem standing_emit (e : Effect) (s : Connection κ) :
    standing (emit e s) = (standing s).record e := by
  simp only [standing, Standing.record, observe_emit]
  rfl

theorem standing_addPacketToQueue (p : Packet) (s : Connection κ) :
    standing (addPacketToQueue env p s) = (standing s).record (.enqueued p) := by
  have h := addPacketToQueue_writesOnly env p s
  have hevents := observe_addPacketToQueue env p s (f := loginEvent) fun _ _ => rfl
  simp only [standing, Standing.record, h.running, h.mustDisconnect, h.isOpen, h.status,
    h.readBuffer, h.player, h.verifyToken, h.decryptCtx, hevents]

theorem standing_usePlayer (f : Player → Player) (s : Connection κ) :
    standing (usePlayer f s) = { standing s with player := s.player.map f } := by
  have hevents := observe_usePlayer f s (g := loginEvent) rfl
  simp only [standing, hevents, usePlayer_running, usePlayer_mustDisconnect, usePlayer_socket,
    usePlayer_status, usePlayer_readBuffer, usePlayer_player, usePlayer_verifyToken,
    usePlayer_cipher]

/-- A handshake with the version of the server disconnects nobody. -/
theorem versionChecked_of_eq {p : ClientProtocolPacket} (hv : p.protocolVersion = 51) :
    versionChecked env p s = usePlayer (Player.setUsername p.username) s := by
  rw [versionChecked, if_neg (not_not.mpr hv)]

theorem tokenChecked_of_eq {p : SharedKeyPacket} (ht : s.verifyToken = p.verifyToken) :
    tokenChecked p s = s := by
  rw [tokenChecked, if_neg (not_not.mpr ht)]

theorem standing_greeted (token : Vector Byte 4) {p : ClientProtocolPacket}
    (hv : p.protocolVersion = 51) :
    standing (greeted env token p s) = { standing s with
      status := .login
      player := (standing s).player.map (Player.setUsername p.username)
      verifyToken := token.toList
      events := (standing s).events ++ [.queued (.serverAuthData ⟨token.toList⟩)] } := by
  let named := { usePlayer (Player.setUsername p.username) s with verifyToken := token.toList }
  have hq : standing (addPacketToQueue env (.serverAuthData ⟨token.toList⟩) named) = _ :=
    standing_addPacketToQueue _ _
  have hu := standing_usePlayer (Player.setUsername p.username) s
  have hn : standing named =
      { standing (usePlayer (Player.setUsername p.username) s) with
        verifyToken := token.toList } := rfl
  calc
    standing (greeted env token p s) =
        { standing (addPacketToQueue env (.serverAuthData ⟨token.toList⟩) named) with
          status := .login } := by
      rw [greeted, versionChecked_of_eq hv, standing_emit]
      simp only [Standing.record, loginEvent, answered, Option.map_none, Option.toList_none,
        List.append_nil]
      rfl
    _ = _ := by
      rw [hq, hn, hu]
      rfl

theorem standing_loggedIn (cipher : AESCipher κ) {p : SharedKeyPacket}
    (ht : s.verifyToken = p.verifyToken) :
    standing (loggedIn env cipher p s) = { standing s with
      status := .play
      decryptCtx := some cipher.decryptCtx
      events := (standing s).events ++ [.installed p.sharedSecret, .queued (.login {}),
        .queued (.spawnPoint ⟨0, 0, 0⟩), .queued (.playerPosition {})] } := by
  let keyed := emit (.cipherInstalled p.sharedSecret) { s with cipher := some cipher }
  let queued := addPacketToQueue env (.playerPosition {})
    (addPacketToQueue env (.spawnPoint ⟨0, 0, 0⟩) (addPacketToQueue env (.login {}) keyed))
  have hk : standing keyed = { standing s with
      decryptCtx := some cipher.decryptCtx
      events := (standing s).events ++ [.installed p.sharedSecret] } :=
    standing_emit _ _
  calc
    standing (loggedIn env cipher p s) = { standing queued with status := .play } := by
      rw [loggedIn, tokenChecked_of_eq ht, standing_emit]
      simp only [Standing.record, loginEvent, answered, Option.map_none, Option.toList_none,
        List.append_nil]
      rfl
    _ = _ := by
      simp only [queued, standing_addPacketToQueue, hk, Standing.record, loginEvent, answered,
        Option.map_some, Option.toList_some, List.append_assoc, List.cons_append, List.nil_append]

/-- A write that fails on a connection that is to stay ends the writing and nothing else. -/
theorem handleWrite_failed {size : Nat} (h : s.mustDisconnect = false) :
    handleWrite true size s = { s with isWriting := false } := by
  have hstay : ¬ ({ s with isWriting := false } : Connection κ).mustDisconnect = true := by
    simp [h]
  simp only [handleWrite, if_true]
  rw [if_neg hstay]

/-- Events between two packets leave the standing as it is. -/
theorem standing_between {token : Vector Byte 4} {e : ConnectionEvent}
    (hstay : s.mustDisconnect = false) (hst : s.status ≠ .ping)
    (hu : Undisturbed token s (.between e)) (hstep : deliver env s (.between e) = some t) :
    standing t = standing s := by
  cases step_cases hstep with
  | handleConnection _ _ => cases hu
  | readCompleted _ _ => cases hu
  | readFailed _ => cases hu
  | kickPlayer => cases hu
  | addPacketToQueue => cases hu
  | writeCompleted _ _ =>
      rename_i w _ _
      have hopen : ¬ ClosesOnWrite w.bytes.length (completeWrite w s) := by
        rintro (hm | ⟨_, hp⟩)
        · cases hstay.symm.trans hm
        · exact hst hp
      rw [handleWrite_of_not_closes hopen]
      exact (standing_emit (.writeCompleted w.batch)
        { s with socket := { s.socket with pendingWrite := none } }).trans
        (by simp [Standing.record, loginEvent, answered, standing, observe])
  | writeFailed _ =>
      rw [handleWrite_failed (s := { s with socket := { s.socket with pendingWrite := none } })
        hstay]
      rfl
  | @sendKeepAlive now =>
      have hlate : ¬ now - s.lastActivity > 20 := Int.not_lt.mpr hu
      rw [sendKeepAlive, if_neg hlate]

end Methods

/-! ## The two packets -/

section Rounds

variable {env : Environment κ} {ambient : Ambient} {s : Connection κ} {l : Login}
  {token : Vector Byte 4} {secret ys : List Byte}

/-- The state in which a packet has been read and not yet acted on. -/
def consumed (p : ClientPacket) (s : Connection κ) : Connection κ :=
  { entered p.id s with readBuffer := (entered p.id s).readBuffer.advance p.body.length }

theorem standing_consumed (p : ClientPacket) (s : Connection κ) :
    standing (consumed p s) =
      { standing s with readPos := s.readBuffer.readPos + p.encode.length } := by
  have hpos : (consumed p s).readBuffer.readPos = s.readBuffer.readPos + p.encode.length := by
    rw [p.length_encode, Nat.add_comm p.body.length, ← Nat.add_assoc]
    rfl
  have hevents : observe loginEvent (consumed p s) = observe loginEvent s :=
    observe_emit_none rfl _
  simp only [standing, hpos, hevents]
  rfl

theorem round_handshake (ha : l.Answers env token secret) (hrand : ambient.rand = some token)
    (hst : s.status = .handshake) (hrest : s.readBuffer.rest = l.handshake.encode ++ ys) :
    processRound env ambient s = .ok true (greeted env token
      (clientProtocolPacket 51 l.username l.serverHost l.serverPort)
      (consumed l.handshake s)) := by
  have hid := s.readBuffer.getElem?_of_rest hrest
  have hentered : (entered l.handshake.id s).status = .handshake := hst
  have hread : ClientProtocolPacket.readData (entered l.handshake.id s).readBuffer = .ok _ _ :=
    clientProtocol_reads 51 l.serverPort ha.handshake.1 ha.handshake.2 _ _ (rest_entered hrest)
  rw [processRound_of_lookup hid rfl, handleHandshake_apply, if_pos hentered, hread]
  simp only [hrand]
  rfl

theorem round_sharedKey (ha : l.Answers env token secret) (hst : s.status = .login)
    (hrest : s.readBuffer.rest = l.sharedKey.encode ++ ys) :
    processRound env ambient s = .ok true (loggedIn env (cipherOf env secret)
      ⟨secret, token.toList⟩ (consumed l.sharedKey s)) := by
  have hid := s.readBuffer.getElem?_of_rest hrest
  have hentered : (entered l.sharedKey.id s).status = .login := hst
  have hread : SharedKeyPacket.readData env.keypair ambient.beyond
      (entered l.sharedKey.id s).readBuffer = .ok _ _ :=
    sharedKey_reads ambient.beyond ha.sharedKey.1 ha.sharedKey.2 ha.secret_eq ha.token_eq _ _
      (rest_entered hrest)
  rw [processRound_of_lookup hid rfl, handleSharedKeyPacket_apply, if_pos hentered, hread]
  simp only [if_neg (not_not.mpr ha.keySize)]
  rfl

end Rounds

section Deliveries

variable {env : Environment κ} {ambient : Ambient} {s t : Connection κ} {l : Login}
  {token : Vector Byte 4} {secret : List Byte} {player : Player}

theorem standing_receive (bytes : List Byte) (s : Connection κ) :
    standing (receive bytes s) = standing s :=
  (standing_emit _ _).trans (by simp [Standing.record, loginEvent, answered, standing, observe])

theorem standing_startRead (h : s.readBuffer.data.length = readBufferSize) :
    standing (startRead s) =
      { standing s with readPos := nextPosition s.readBuffer.readPos } := by
  have hevents : observe loginEvent (startRead s) = observe loginEvent s := observe_emit_none rfl _
  simp only [standing, startRead_readPos h, hevents]
  rfl

/-- The delivery of a packet that a round consumes. -/
theorem deliver_consumed {p : ClientPacket} {f : Connection κ → Connection κ}
    (hready : ReadReady s) (hc : s.cipher = none) (hlt : s.readBuffer.readPos < p.encode.length)
    (hround : ∀ ys, (receive p.encode s).readBuffer.rest = p.encode ++ ys →
      processRound env ambient (receive p.encode s) =
        .ok true (f (consumed p (receive p.encode s))))
    (hf : (f (consumed p (receive p.encode s))).readBuffer =
      (consumed p (receive p.encode s)).readBuffer)
    (hstep : deliver env s (.packet p ambient) = some t) :
    t = startRead (f (consumed p (receive p.encode s))) ∧
      standing t = { standing (f (consumed p (receive p.encode s))) with
        readPos := nextPosition (s.readBuffer.readPos + p.encode.length) } := by
  cases step_cases hstep with
  | readCompleted hr hl =>
      have hp := hready.posted hr
      have hdone := hround _ (rest_receive hp p.encode)
      have hpos := congrArg Standing.readPos (standing_consumed p (receive p.encode s))
      have hend : (f (consumed p (receive p.encode s))).readBuffer.readPos =
          s.readBuffer.readPos + p.encode.length := by
        rw [hf]
        exact hpos
      rw [handleRead_of_no_cipher hc, processPackets_of_round (by exact hlt) hdone,
        processPackets_of_le (by rw [hend]; exact Nat.le_add_left ..)]
      refine ⟨rfl, ?_⟩
      rw [standing_startRead, hend]
      rw [hf]
      exact hp.length_receive hl

/-- The handshake finds the read buffer at its start. -/
theorem greeted_of_opened (ha : l.Answers env token secret) (hrand : ambient.rand = some token)
    (hready : ReadReady s) (h : standing s = .opened player)
    (hstep : deliver env s (.packet l.handshake ambient) = some t) :
    t = startRead (greeted env token (clientProtocolPacket 51 l.username l.serverHost l.serverPort)
        (consumed l.handshake (receive l.handshake.encode s))) ∧
      standing t = .greeted token l player := by
  have hst : s.status = .handshake := congrArg Standing.status h
  have hpos : s.readBuffer.readPos = 0 := congrArg Standing.readPos h
  have hc : s.cipher = none := Option.map_eq_none_iff.mp (congrArg Standing.decryptCtx h)
  have hlen : l.handshake.encode.length = 10 + 2 * l.username.length + 2 * l.serverHost.length := by
    simp only [Login.handshake, ClientPacket.length_encode, ClientPacket.body, List.length_append,
      List.length_cons, List.length_nil, length_stringBytes, BigEndian.length_toBytes]
    omega
  have hsmall : ¬ readBufferSize ≤ l.handshake.encode.length := by
    have hname := ha.handshake.1
    have hhost := ha.handshake.2
    rw [hlen, readBufferSize]
    omega
  obtain ⟨hend, hdelivered⟩ := deliver_consumed (f := greeted env token _) hready hc (by omega)
    (fun ys hrest => round_handshake ha hrand hst hrest) (greeted_readBuffer ..) hstep
  refine ⟨hend, ?_⟩
  rw [hdelivered, standing_greeted token rfl, standing_consumed, standing_receive, h, hpos,
    Nat.zero_add, nextPosition, if_neg hsmall]
  rfl

/-- A key packet that is longer than the handshake is handled. -/
theorem loggedIn_of_greeted (ha : l.Answers env token secret) (hready : ReadReady s)
    (h : standing s = .greeted token l player)
    (hlt : l.handshake.encode.length < l.sharedKey.encode.length)
    (hstep : deliver env s (.packet l.sharedKey ambient) = some t) :
    t = startRead (loggedIn env (cipherOf env secret) ⟨secret, token.toList⟩
        (consumed l.sharedKey (receive l.sharedKey.encode s))) ∧
      standing t = .loggedIn env token secret l player := by
  have hst : s.status = .login := congrArg Standing.status h
  have hpos : s.readBuffer.readPos = l.handshake.encode.length := congrArg Standing.readPos h
  have hc : s.cipher = none := Option.map_eq_none_iff.mp (congrArg Standing.decryptCtx h)
  have htoken : (consumed l.sharedKey (receive l.sharedKey.encode s)).verifyToken = token.toList :=
    congrArg Standing.verifyToken h
  obtain ⟨hend, hdelivered⟩ := deliver_consumed (f := loggedIn env _ ⟨secret, token.toList⟩)
    hready hc (by omega) (fun ys hrest => round_sharedKey ha hst hrest) (loggedIn_readBuffer ..)
    hstep
  refine ⟨hend, ?_⟩
  rw [hdelivered, standing_loggedIn _ htoken, standing_consumed, standing_receive, h, hpos]
  rfl

/-- One that is not is left unread. -/
theorem unread_of_greeted (hready : ReadReady s) (h : standing s = .greeted token l player)
    (hle : l.sharedKey.encode.length ≤ l.handshake.encode.length)
    (hstep : deliver env s (.packet l.sharedKey ambient) = some t) :
    standing t = .greeted token l player := by
  have hpos : s.readBuffer.readPos = l.handshake.encode.length := congrArg Standing.readPos h
  have hc : s.cipher = none := Option.map_eq_none_iff.mp (congrArg Standing.decryptCtx h)
  cases step_cases hstep with
  | readCompleted hr hl =>
      have hp := hready.posted hr
      have hbehind : l.sharedKey.encode.length ≤
          (receive l.sharedKey.encode s).readBuffer.readPos := by
        rw [receive_readPos, hpos]
        exact hle
      rw [handleRead_of_no_cipher hc, processPackets_of_le hbehind,
        standing_startRead (hp.length_receive hl), standing_receive, receive_readPos, ← h,
        nextPosition, if_neg (Nat.not_le.mpr hp.2)]
      rfl

end Deliveries

/-! ## Runs -/

section Run

variable {env : Environment κ} {s t : Connection κ} {l : Login} {token : Vector Byte 4}
  {secret : List Byte} {player : Player} {ds : List Delivery}

/-- The standing behind this many of the two packets. -/
def Standing.behind (env : Environment κ) (token : Vector Byte 4) (secret : List Byte)
    (l : Login) (player : Player) : Nat → Standing κ
  | 0 => .opened player
  | 1 => .greeted token l player
  | _ => if l.handshake.encode.length < l.sharedKey.encode.length then
      .loggedIn env token secret l player else .greeted token l player

theorem Standing.behind_staying (env : Environment κ) (token : Vector Byte 4)
    (secret : List Byte) (l : Login) (player : Player) (n : Nat) :
    (Standing.behind env token secret l player n).mustDisconnect = false ∧
      (Standing.behind env token secret l player n).status ≠ .ping := by
  match n with
  | 0 => exact ⟨rfl, nofun⟩
  | 1 => exact ⟨rfl, nofun⟩
  | n + 2 =>
      unfold Standing.behind
      split_ifs
      · exact ⟨rfl, nofun⟩
      · exact ⟨rfl, nofun⟩

/-- Each delivery takes the standing behind the packets so far to the next one. -/
theorem standing_deliver {past : List Delivery} {d : Delivery} {rest : List ClientPacket}
    (ha : l.Answers env token secret) (hready : ReadReady s) (hu : Undisturbed token s d)
    (hstep : deliver env s d = some t)
    (hp : (past ++ [d]).flatMap Delivery.packets ++ rest = [l.handshake, l.sharedKey])
    (h : standing s = .behind env token secret l player (past.flatMap Delivery.packets).length) :
    standing t = .behind env token secret l player
      ((past ++ [d]).flatMap Delivery.packets).length := by
  rw [List.flatMap_append, List.flatMap_singleton] at hp ⊢
  cases d with
  | between e =>
      obtain ⟨hstay, hst⟩ := Standing.behind_staying env token secret l player
        (past.flatMap Delivery.packets).length
      rw [← h] at hstay hst
      rw [Delivery.packets, List.append_nil, ← h]
      exact standing_between hstay hst hu hstep
  | packet p ambient =>
      rw [Delivery.packets, List.append_assoc, List.singleton_append] at hp
      rw [Delivery.packets, List.length_append, List.length_singleton]
      rcases hpast : past.flatMap Delivery.packets with _ | ⟨first, _ | ⟨second, others⟩⟩
      · -- The handshake is delivered.
        rw [hpast] at hp h
        obtain ⟨rfl, _⟩ := List.cons.inj hp
        exact (greeted_of_opened ha hu hready h hstep).2
      · -- The key packet is delivered.
        rw [hpast] at hp h
        obtain ⟨rfl, hrest⟩ := List.cons.inj hp
        obtain ⟨rfl, _⟩ := List.cons.inj hrest
        change standing t = if l.handshake.encode.length < l.sharedKey.encode.length then
          .loggedIn env token secret l player else .greeted token l player
        split_ifs with hlt
        · exact (loggedIn_of_greeted ha hready h hlt hstep).2
        · exact unread_of_greeted hready h (Nat.not_lt.mp hlt) hstep
      · -- There are no more than two packets.
        rw [hpast] at hp
        have hlen := congrArg List.length hp
        simp only [List.length_append, List.length_cons, List.length_nil] at hlen
        omega

theorem standing_opened (player : Player) (now : Int) :
    standing (opened player now : Connection κ) = .opened player := rfl

/-- When the two packets have been delivered, the client is in PLAY with a
cipher of its secret exactly if its handshake is shorter than its key packet,
and else the server still waits for the key. -/
theorem login_completes_iff {now : Int} (ha : l.Answers env token secret)
    (run : GuardedRun (deliver env) (Undisturbed token) (opened player now) ds t)
    (hp : ds.flatMap Delivery.packets = [l.handshake, l.sharedKey]) :
    (t.status = .play ↔ l.handshake.encode.length < l.sharedKey.encode.length) ∧
      standing t = if l.handshake.encode.length < l.sharedKey.encode.length then
        .loggedIn env token secret l player else .greeted token l player := by
  have hbehind : ReadReady t ∧ ∀ rest, ds.flatMap Delivery.packets ++ rest =
      [l.handshake, l.sharedKey] → standing t =
        .behind env token secret l player (ds.flatMap Delivery.packets).length := by
    apply run.invariant_history (I := fun past t => ReadReady t ∧ ∀ rest,
      past.flatMap Delivery.packets ++ rest = [l.handshake, l.sharedKey] →
        standing t = .behind env token secret l player (past.flatMap Delivery.packets).length)
    · rintro past s d t hu hstep ⟨hready, h⟩
      refine ⟨hready.step hstep, fun rest hrest => ?_⟩
      have hbefore := h (d.packets ++ rest) (by
        rw [← hrest, List.flatMap_append, List.flatMap_singleton, List.append_assoc])
      exact standing_deliver ha hready hu hstep hrest hbefore
    · exact ⟨.startRead (Nat.zero_le _), fun _ _ => standing_opened player now⟩
  have hend := hbehind.2 [] (by rw [hp, List.append_nil])
  rw [hp] at hend
  have hstanding : standing t = if l.handshake.encode.length < l.sharedKey.encode.length then
      .loggedIn env token secret l player else .greeted token l player := hend
  have hstatus : t.status = _ := congrArg Standing.status hstanding
  refine ⟨?_, hstanding⟩
  rw [hstatus]
  split_ifs with hlt
  · exact ⟨fun _ => hlt, fun _ => rfl⟩
  · exact ⟨nofun, fun h => absurd h hlt⟩

end Run

/-- A client under this name for the server, with the test key and the token of `chainAmbient`. -/
def chainLogin (serverHost : List Short) : Login :=
  ⟨[0x61], serverHost, 25565, List.replicate 16 7, [1, 2, 3, 4]⟩

def chainDeliveries (l : Login) : List Delivery :=
  [.packet l.handshake chainAmbient, .between .writeCompleted, .between (.sendKeepAlive 20),
    .packet l.sharedKey chainAmbient]

theorem chainLogin_answers {host : List Short} (h : host.length ≤ 255) :
    (chainLogin host).Answers chainEnvironment #v[1, 2, 3, 4] (List.replicate 16 7) :=
  ⟨⟨(by decide : 1 ≤ 16), h⟩, ⟨(by decide : 16 ≤ 32767), (by decide : 4 ≤ 32767)⟩, rfl, rfl, rfl⟩

/-- A client with a short name for the server logs in, and one with a long name does not. -/
theorem login_completes_iff_names :
    (∃ t : Connection Byte, GuardedRun (deliver chainEnvironment) (Undisturbed #v[1, 2, 3, 4])
        (opened {} 0) (chainDeliveries (chainLogin [0x61])) t ∧ t.status = .play) ∧
      ∃ t : Connection Byte, GuardedRun (deliver chainEnvironment) (Undisturbed #v[1, 2, 3, 4])
        (opened {} 0) (chainDeliveries (chainLogin (List.replicate 7 0x61))) t ∧
          t.status ≠ .play := by
  constructor
  · obtain ⟨t, hrun, _⟩ := exists_guardedRun (deliver chainEnvironment)
      (Undisturbed #v[1, 2, 3, 4]) (opened {} 0) (chainDeliveries (chainLogin [0x61]))
      (fun _ => True) (by decide +kernel)
    have hcompletes := (login_completes_iff (chainLogin_answers (by decide)) hrun rfl).1
    exact ⟨t, hrun, hcompletes.mpr (by decide)⟩
  · obtain ⟨t, hrun, _⟩ := exists_guardedRun (deliver chainEnvironment)
      (Undisturbed #v[1, 2, 3, 4]) (opened {} 0)
      (chainDeliveries (chainLogin (List.replicate 7 0x61))) (fun _ => True) (by decide +kernel)
    refine ⟨t, hrun, fun hplay => ?_⟩
    have hlt := (login_completes_iff (chainLogin_answers (by decide)) hrun rfl).1.mp hplay
    revert hlt
    decide

end Connection

end CarpetSrv.Network
