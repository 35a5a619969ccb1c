import CarpetSrv.Network.ConnectionFrame

/-!
# What a handler can do

`Handles` lists every way in which the handler of a packet id can end, with
the state it ends in. Every fact about handlers is a case analysis on it, and
no later proof unfolds a handler.

## Implementation notes

The state behind the decoding of a packet is written with the functions
`pinged`, `versionChecked`, `greeted`, `tokenChecked`, `loggedIn`, `informed`
and `positioned`, which are the rest of the handler bodies.
-/

namespace CarpetSrv.Network

open Foundation Foundation.ExceptState Foundation.BoundedLoop Packet Utils Connection

variable {κ : Type}

namespace Connection

theorem onReadBuffer_apply {α : Type} (m : BufferReader α) (s : Connection κ) :
    onReadBuffer m s = match m s.readBuffer with
      | .ok a b => .ok a { s with readBuffer := b }
      | .error e b => .error e { s with readBuffer := b } := rfl

/-! ## The states behind the decoding -/

def pinged (env : Environment κ) (p : ServerPingPacket) (s : Connection κ) : Connection κ :=
  emit (.handled (.serverPing p))
    { addPacketToQueue env (.kick ⟨serializeServerInfo (literal ['1', '.', '4', '.', '7'])
      (literal ("A server running Carpet SRV".toList)) 0 20⟩) s with status := .ping }

/-- The handshake handler up to the generation of the verify token. -/
def versionChecked (env : Environment κ) (p : ClientProtocolPacket) (s : Connection κ) :
    Connection κ :=
  usePlayer (Player.setUsername p.username)
    (if p.protocolVersion ≠ 51 then
      disconnectWith env (.ofString (literal ['p', 'i', 'n', 'g', 'e', 'd', '.'])) s
    else s)

def greeted (env : Environment κ) (token : Vector Byte 4) (p : ClientProtocolPacket)
    (s : Connection κ) : Connection κ :=
  emit (.handled (.clientProtocol p))
    { addPacketToQueue env (.serverAuthData ⟨token.toList⟩)
      { versionChecked env p s with verifyToken := token.toList } with status := .login }

/-- The shared-key handler up to the construction of the cipher. -/
def tokenChecked (p : SharedKeyPacket) (s : Connection κ) : Connection κ :=
  if s.verifyToken ≠ p.verifyToken then disconnect s else s

def loggedIn (env : Environment κ) (cipher : AESCipher κ) (p : SharedKeyPacket)
    (s : Connection κ) : Connection κ :=
  emit (.handled (.sharedKey p))
    { addPacketToQueue env (.playerPosition {})
      (addPacketToQueue env (.spawnPoint ⟨0, 0, 0⟩)
        (addPacketToQueue env (.login {})
          (emit (.cipherInstalled p.sharedSecret)
            { tokenChecked p s with cipher := some cipher }))) with status := .play }

def informed (p : ClientInfoPacket) (s : Connection κ) : Connection κ :=
  emit (.handled (.clientInfo p))
    (usePlayer (fun player => ((player.setLanguage p.language).setShowCape
      p.showCape).setRenderDistance p.renderDistance) s)

def keptAlive (now : Int) (s : Connection κ) : Connection κ :=
  emit (.handled .keepAlive) { s with lastActivity := now }

def positioned (p : PlayerPositionPacket) (s : Connection κ) : Connection κ :=
  emit (.handled (.playerPosition p))
    (usePlayer (Player.setPosition p.location.x p.location.y p.location.z) s)

/-- The cipher that the shared-key handler installs for a 16-byte secret. -/
def cipherOf (env : Environment κ) (secret : List Byte) : AESCipher κ :=
  ⟨env.evp.encryptInit secret, env.evp.decryptInit secret⟩

section Keeps

variable {env : Environment κ} {I : Connection κ → Prop} {s : Connection κ}

theorem disconnectWith_keeps (reason : UTF16String)
    (ha : ∀ {t : Connection κ} p, I t → I (addPacketToQueue env p t))
    (hu : ∀ {t : Connection κ} (f : Player → Player), I t → I (usePlayer f t))
    (hr : ∀ {t : Connection κ}, I t → I { t with running := false })
    (hm : ∀ {t : Connection κ}, I t → I { t with mustDisconnect := true })
    (h : I (emit (.disconnected (some reason)) s)) : I (disconnectWith env reason s) :=
  hm (hu id (hr (ha _ h)))

theorem versionChecked_keeps {p : ClientProtocolPacket}
    (hu : ∀ {t : Connection κ} (f : Player → Player), I t → I (usePlayer f t))
    (hd : ∀ reason, p.protocolVersion ≠ 51 → I (disconnectWith env reason s)) (h : I s) :
    I (versionChecked env p s) := by
  unfold versionChecked
  apply hu
  split_ifs with hv
  · exact hd _ hv
  · exact h

theorem tokenChecked_keeps {p : SharedKeyPacket}
    (hd : s.verifyToken ≠ p.verifyToken → I (disconnect s)) (h : I s) : I (tokenChecked p s) := by
  unfold tokenChecked
  split_ifs with hv
  · exact hd hv
  · exact h

theorem sendKeepAlive_keeps (now : Int) (hr : ∀ reason, I (disconnectWith env reason s))
    (hd : I (disconnect s)) (h : I s) : I (sendKeepAlive env now s) := by
  unfold sendKeepAlive
  split_ifs
  · exact hr _
  · exact hd
  · exact h

end Keeps

section States

variable (env : Environment κ) (s : Connection κ)

@[simp] theorem versionChecked_status (p : ClientProtocolPacket) :
    (versionChecked env p s).status = s.status := by
  unfold versionChecked
  split_ifs <;> simp

@[simp] theorem versionChecked_isOpen (p : ClientProtocolPacket) :
    (versionChecked env p s).socket.isOpen = s.socket.isOpen := by
  unfold versionChecked
  split_ifs <;> simp

@[simp] theorem versionChecked_pendingRead (p : ClientProtocolPacket) :
    (versionChecked env p s).socket.pendingRead = s.socket.pendingRead := by
  unfold versionChecked
  split_ifs <;> simp

@[simp] theorem tokenChecked_verifyToken (p : SharedKeyPacket) :
    (tokenChecked p s).verifyToken = s.verifyToken := by
  unfold tokenChecked
  split_ifs <;> rfl

@[simp] theorem tokenChecked_status (p : SharedKeyPacket) :
    (tokenChecked p s).status = s.status := by
  unfold tokenChecked
  split_ifs <;> rfl

@[simp] theorem tokenChecked_socket (p : SharedKeyPacket) :
    (tokenChecked p s).socket = s.socket := by
  unfold tokenChecked
  split_ifs <;> rfl

@[simp] theorem tokenChecked_player (p : SharedKeyPacket) :
    (tokenChecked p s).player = s.player := by
  unfold tokenChecked
  split_ifs <;> rfl

@[simp] theorem versionChecked_readBuffer (p : ClientProtocolPacket) :
    (versionChecked env p s).readBuffer = s.readBuffer := by
  unfold versionChecked
  split_ifs <;> simp

@[simp] theorem tokenChecked_readBuffer (p : SharedKeyPacket) :
    (tokenChecked p s).readBuffer = s.readBuffer := by
  unfold tokenChecked
  split_ifs <;> rfl

@[simp] theorem pinged_readBuffer (p : ServerPingPacket) :
    (pinged env p s).readBuffer = s.readBuffer := by
  simp [pinged]

@[simp] theorem greeted_readBuffer (token : Vector Byte 4) (p : ClientProtocolPacket) :
    (greeted env token p s).readBuffer = s.readBuffer := by
  simp [greeted]

@[simp] theorem loggedIn_readBuffer (cipher : AESCipher κ) (p : SharedKeyPacket) :
    (loggedIn env cipher p s).readBuffer = s.readBuffer := by
  simp [loggedIn]

@[simp] theorem informed_readBuffer (p : ClientInfoPacket) :
    (informed p s).readBuffer = s.readBuffer := by
  simp [informed]

@[simp] theorem positioned_readBuffer (p : PlayerPositionPacket) :
    (positioned p s).readBuffer = s.readBuffer := by
  simp [positioned]

@[simp] theorem greeted_verifyToken (token : Vector Byte 4) (p : ClientProtocolPacket) :
    (greeted env token p s).verifyToken = token.toList := by
  simp [greeted]

@[simp] theorem loggedIn_verifyToken (cipher : AESCipher κ) (p : SharedKeyPacket) :
    (loggedIn env cipher p s).verifyToken = s.verifyToken := by
  simp [loggedIn]

section Observe

variable {α : Type} {f : Effect → Option α}

theorem observe_tokenChecked (hf : f (.disconnected none) = none) (p : SharedKeyPacket) :
    observe f (tokenChecked p s) = observe f s := by
  unfold tokenChecked
  split_ifs
  · exact observe_emit_none hf _
  · rfl

variable (hf : ∀ batch bytes, f (.writePosted batch bytes) = none)

include hf

theorem observe_pinged (p : ServerPingPacket) : observe f (pinged env p s) =
    observe f s ++ (f (.enqueued (.kick ⟨serializeServerInfo (literal ['1', '.', '4', '.', '7'])
      (literal ("A server running Carpet SRV".toList)) 0 20⟩))).toList ++
      (f (.handled (.serverPing p))).toList := by
  rw [← observe_addPacketToQueue env _ s hf]
  exact observe_emit f _ _

theorem observe_greeted (token : Vector Byte 4) (p : ClientProtocolPacket) :
    observe f (greeted env token p s) =
      observe f (versionChecked env p s) ++
        (f (.enqueued (.serverAuthData ⟨token.toList⟩))).toList ++
        (f (.handled (.clientProtocol p))).toList := by
  have hq := observe_addPacketToQueue env (.serverAuthData ⟨token.toList⟩)
    { versionChecked env p s with verifyToken := token.toList } hf
  refine (observe_emit f _ _).trans (congrArg (· ++ _) ?_)
  exact hq

theorem observe_loggedIn (cipher : AESCipher κ) (p : SharedKeyPacket) :
    observe f (loggedIn env cipher p s) =
      observe f (tokenChecked p s) ++ (f (.cipherInstalled p.sharedSecret)).toList ++
        (f (.enqueued (.login {}))).toList ++
        (f (.enqueued (.spawnPoint ⟨0, 0, 0⟩))).toList ++
        (f (.enqueued (.playerPosition {}))).toList ++
        (f (.handled (.sharedKey p))).toList := by
  refine (observe_emit f _ _).trans (congrArg (· ++ _) ?_)
  refine (observe_addPacketToQueue env _ _ hf).trans (congrArg (· ++ _) ?_)
  refine (observe_addPacketToQueue env _ _ hf).trans (congrArg (· ++ _) ?_)
  refine (observe_addPacketToQueue env _ _ hf).trans (congrArg (· ++ _) ?_)
  exact observe_emit f _ _

end Observe

end States

/-! ## The handlers as functions of the connection -/

theorem handleServerPingPacket_apply (env : Environment κ) (s : Connection κ) :
    handleServerPingPacket env s =
      if s.status = .handshake then
        match ServerPingPacket.readData s.readBuffer with
        | .error e b => .error e { s with readBuffer := b }
        | .ok p b => .ok () (pinged env p { s with readBuffer := b })
      else .ok () s := by
  simp only [handleServerPingPacket, bind_apply, get_apply, ite_run, onReadBuffer_apply,
    pure_apply]
  cases ServerPingPacket.readData s.readBuffer <;> rfl

theorem handleHandshake_apply (env : Environment κ) (ambient : Ambient) (s : Connection κ) :
    handleHandshake env ambient s =
      if s.status = .handshake then
        match ClientProtocolPacket.readData s.readBuffer with
        | .error e b => .error e { s with readBuffer := b }
        | .ok p b =>
            match ambient.rand with
            | none => .error .randFailed (versionChecked env p { s with readBuffer := b })
            | some token => .ok () (greeted env token p { s with readBuffer := b })
      else .ok () s := by
  simp only [handleHandshake, bind_apply, get_apply, ite_run, onReadBuffer_apply, pure_apply]
  cases ClientProtocolPacket.readData s.readBuffer with
  | error e b => rfl
  | ok p b => cases ambient.rand <;> rfl

theorem handleSharedKeyPacket_apply (env : Environment κ) (ambient : Ambient)
    (s : Connection κ) :
    handleSharedKeyPacket env ambient s =
      if s.status = .login then
        match SharedKeyPacket.readData env.keypair ambient.beyond s.readBuffer with
        | .error e b => .error e { s with readBuffer := b }
        | .ok p b =>
            if p.sharedSecret.length ≠ 16 then
              .error .keySize (tokenChecked p { s with readBuffer := b })
            else
              .ok () (loggedIn env (cipherOf env p.sharedSecret) p { s with readBuffer := b })
      else .ok () s := by
  simp only [handleSharedKeyPacket, bind_apply, get_apply, ite_run, onReadBuffer_apply, pure_apply]
  cases SharedKeyPacket.readData env.keypair ambient.beyond s.readBuffer with
  | error e b => rfl
  | ok p b =>
      simp only [AESCipher.create]
      by_cases h : p.sharedSecret.length ≠ 16
      · simp only [if_pos h]
        rfl
      · simp only [if_neg h]
        rfl

theorem handleClientInfo_apply (s : Connection κ) :
    handleClientInfo s = match ClientInfoPacket.readData s.readBuffer with
      | .error e b => .error e { s with readBuffer := b }
      | .ok p b => .ok () (informed p { s with readBuffer := b }) := by
  simp only [handleClientInfo, bind_apply, onReadBuffer_apply]
  cases ClientInfoPacket.readData s.readBuffer <;> rfl

theorem handlePositionPacket_apply (s : Connection κ) :
    handlePositionPacket env s =
      match PlayerPositionPacket.readData env.argumentOrder s.readBuffer with
      | .error e b => .error e { s with readBuffer := b }
      | .ok p b => .ok () (positioned p { s with readBuffer := b }) := by
  simp only [handlePositionPacket, bind_apply, onReadBuffer_apply]
  cases PlayerPositionPacket.readData env.argumentOrder s.readBuffer <;> rfl

/-! ## What the handlers read -/

section Reading

variable {env : Environment κ} {ambient : Ambient} {s : Connection κ}

theorem handleServerPingPacket_readBuffer :
    (after (handleServerPingPacket env) s).readBuffer =
      if s.status = .handshake then after ServerPingPacket.readData s.readBuffer
      else s.readBuffer := by
  rw [after, after, handleServerPingPacket_apply]
  split_ifs
  · cases ServerPingPacket.readData s.readBuffer <;> simp [exitState]
  · rfl

theorem handleHandshake_readBuffer :
    (after (handleHandshake env ambient) s).readBuffer =
      if s.status = .handshake then after ClientProtocolPacket.readData s.readBuffer
      else s.readBuffer := by
  rw [after, after, handleHandshake_apply]
  split_ifs
  · cases ClientProtocolPacket.readData s.readBuffer with
    | error e b => rfl
    | ok p b => cases ambient.rand <;> simp [exitState]
  · rfl

theorem handleSharedKeyPacket_readBuffer :
    (after (handleSharedKeyPacket env ambient) s).readBuffer =
      if s.status = .login then
        after (SharedKeyPacket.readData env.keypair ambient.beyond) s.readBuffer
      else s.readBuffer := by
  rw [after, after, handleSharedKeyPacket_apply]
  split_ifs
  · cases SharedKeyPacket.readData env.keypair ambient.beyond s.readBuffer with
    | error e b => rfl
    | ok p b =>
        dsimp only
        split_ifs <;> simp [exitState]
  · rfl

theorem handleClientInfo_readBuffer :
    (after handleClientInfo s).readBuffer = after ClientInfoPacket.readData s.readBuffer := by
  rw [after, after, handleClientInfo_apply]
  cases ClientInfoPacket.readData s.readBuffer <;> simp [exitState]

theorem handlePositionPacket_readBuffer :
    (after (handlePositionPacket env) s).readBuffer =
      after (PlayerPositionPacket.readData env.argumentOrder) s.readBuffer := by
  rw [after, after, handlePositionPacket_apply]
  cases PlayerPositionPacket.readData env.argumentOrder s.readBuffer <;> simp [exitState]

end Reading

/-! ## Every outcome of a handler -/

/-- How the handler of a packet id ends when it is entered in state `s`. -/
inductive Handles (env : Environment κ) (ambient : Ambient) (s : Connection κ) :
    Byte → EStateM.Result RuntimeError (Connection κ) Unit → Prop
  /-- The status is not the one that the handler serves. Nothing is read. -/
  | ignored {id : Byte} (h : ((id = 0xFE ∨ id = 0x02) ∧ s.status ≠ .handshake) ∨
      (id = 0xFC ∧ s.status ≠ .login)) : Handles env ambient s id (.ok () s)
  /-- The packet could not be decoded. -/
  | malformed {id : Byte} {e : RuntimeError} {b : Buffer} (h : s.readBuffer.AdvancesTo b) :
      Handles env ambient s id (.error e { s with readBuffer := b })
  | pinged {p : ServerPingPacket} {b : Buffer} (hs : s.status = .handshake)
      (hr : ServerPingPacket.readData s.readBuffer = .ok p b) :
      Handles env ambient s 0xFE (.ok () (pinged env p { s with readBuffer := b }))
  | unseeded {p : ClientProtocolPacket} {b : Buffer} (hs : s.status = .handshake)
      (hr : ClientProtocolPacket.readData s.readBuffer = .ok p b) (hrand : ambient.rand = none) :
      Handles env ambient s 0x02
        (.error .randFailed (versionChecked env p { s with readBuffer := b }))
  | greeted {p : ClientProtocolPacket} {b : Buffer} {token : Vector Byte 4}
      (hs : s.status = .handshake) (hr : ClientProtocolPacket.readData s.readBuffer = .ok p b)
      (hrand : ambient.rand = some token) :
      Handles env ambient s 0x02 (.ok () (greeted env token p { s with readBuffer := b }))
  | badKey {p : SharedKeyPacket} {b : Buffer} (hs : s.status = .login)
      (hr : SharedKeyPacket.readData env.keypair ambient.beyond s.readBuffer = .ok p b)
      (hlen : p.sharedSecret.length ≠ 16) :
      Handles env ambient s 0xFC (.error .keySize (tokenChecked p { s with readBuffer := b }))
  | loggedIn {p : SharedKeyPacket} {b : Buffer} (hs : s.status = .login)
      (hr : SharedKeyPacket.readData env.keypair ambient.beyond s.readBuffer = .ok p b)
      (hlen : p.sharedSecret.length = 16) :
      Handles env ambient s 0xFC
        (.ok () (loggedIn env (cipherOf env p.sharedSecret) p { s with readBuffer := b }))
  | informed {p : ClientInfoPacket} {b : Buffer}
      (hr : ClientInfoPacket.readData s.readBuffer = .ok p b) :
      Handles env ambient s 0xCC (.ok () (informed p { s with readBuffer := b }))
  | keptAlive : Handles env ambient s 0x00 (.ok () (keptAlive ambient.now s))
  | positioned {p : PlayerPositionPacket} {b : Buffer}
      (hr : PlayerPositionPacket.readData env.argumentOrder s.readBuffer = .ok p b) :
      Handles env ambient s 0x0B (.ok () (positioned p { s with readBuffer := b }))

variable {env : Environment κ} {ambient : Ambient} {s : Connection κ}

theorem advancesTo_of_error {α : Type} {m : BufferReader α} (hm : Advances m) {b b' : Buffer}
    {e : RuntimeError} (h : m b = .error e b') : b.AdvancesTo b' := by
  have ha := hm b
  rwa [after_of_error h] at ha

theorem advancesTo_of_ok {α : Type} {m : BufferReader α} (hm : Advances m) {b b' : Buffer}
    {a : α} (h : m b = .ok a b') : b.AdvancesTo b' := by
  have ha := hm b
  rwa [after_of_ok h] at ha

theorem handles_serverPing : Handles env ambient s 0xFE (handleServerPingPacket env s) := by
  rw [handleServerPingPacket_apply]
  split_ifs with hs
  · cases hr : ServerPingPacket.readData s.readBuffer with
    | error e b => exact .malformed (advancesTo_of_error serverPing_advances hr)
    | ok p b => exact .pinged hs hr
  · exact .ignored (.inl ⟨.inl rfl, hs⟩)

theorem handles_handshake : Handles env ambient s 0x02 (handleHandshake env ambient s) := by
  rw [handleHandshake_apply]
  split_ifs with hs
  · cases hr : ClientProtocolPacket.readData s.readBuffer with
    | error e b => exact .malformed (advancesTo_of_error clientProtocol_advances hr)
    | ok p b =>
        cases hrand : ambient.rand with
        | none => exact .unseeded hs hr hrand
        | some token => exact .greeted hs hr hrand
  · exact .ignored (.inl ⟨.inr rfl, hs⟩)

theorem handles_sharedKey : Handles env ambient s 0xFC (handleSharedKeyPacket env ambient s) := by
  rw [handleSharedKeyPacket_apply]
  split_ifs with hs
  · cases hr : SharedKeyPacket.readData env.keypair ambient.beyond s.readBuffer with
    | error e b => exact .malformed (advancesTo_of_error (sharedKey_advances _ _) hr)
    | ok p b =>
        by_cases hlen : p.sharedSecret.length ≠ 16
        · simp only [if_pos hlen]
          exact .badKey hs hr hlen
        · simp only [if_neg hlen]
          exact .loggedIn hs hr (not_not.mp hlen)
  · exact .ignored (.inr ⟨rfl, hs⟩)

theorem handles_clientInfo : Handles env ambient s 0xCC (handleClientInfo s) := by
  rw [handleClientInfo_apply]
  cases hr : ClientInfoPacket.readData s.readBuffer with
  | error e b => exact .malformed (advancesTo_of_error clientInfo_advances hr)
  | ok p b => exact .informed hr

theorem handles_position : Handles env ambient s 0x0B (handlePositionPacket env s) := by
  rw [handlePositionPacket_apply]
  cases hr : PlayerPositionPacket.readData env.argumentOrder s.readBuffer with
  | error e b => exact .malformed (advancesTo_of_error (playerPosition_advances _) hr)
  | ok p b => exact .positioned hr

/-- The entries of the handler table. -/
inductive TableEntry (env : Environment κ) (ambient : Ambient) : Byte → ConnM κ Unit → Prop
  | serverPing : TableEntry env ambient 0xFE (handleServerPingPacket env)
  | handshake : TableEntry env ambient 0x02 (handleHandshake env ambient)
  | sharedKey : TableEntry env ambient 0xFC (handleSharedKeyPacket env ambient)
  | clientInfo : TableEntry env ambient 0xCC handleClientInfo
  | keepAlive : TableEntry env ambient 0x00 (handleKeepAlive ambient)
  | position : TableEntry env ambient 0x0B (handlePositionPacket env)

theorem tableEntry_of_lookup {id : Byte} {handler : ConnM κ Unit}
    (h : (packetsHandlers env ambient).lookup id = some handler) :
    TableEntry env ambient id handler := by
  obtain ⟨before, behind, hsplit, _⟩ := List.lookup_eq_some_iff.mp h
  have hmem : (id, handler) ∈ packetsHandlers env ambient := by
    rw [hsplit]
    exact List.mem_append_right _ List.mem_cons_self
  simp only [packetsHandlers, List.mem_cons, Prod.mk.injEq, List.not_mem_nil, or_false] at hmem
  rcases hmem with ⟨rfl, rfl⟩ | ⟨rfl, rfl⟩ | ⟨rfl, rfl⟩ | ⟨rfl, rfl⟩ | ⟨rfl, rfl⟩ | ⟨rfl, rfl⟩
  · exact .serverPing
  · exact .handshake
  · exact .sharedKey
  · exact .clientInfo
  · exact .keepAlive
  · exact .position

/-- Every handler of the table ends in one of the listed ways. -/
theorem handles_of_lookup {id : Byte} {handler : ConnM κ Unit}
    (h : (packetsHandlers env ambient).lookup id = some handler) :
    Handles env ambient s id (handler s) := by
  cases tableEntry_of_lookup h with
  | serverPing => exact handles_serverPing
  | handshake => exact handles_handshake
  | sharedKey => exact handles_sharedKey
  | clientInfo => exact handles_clientInfo
  | keepAlive => exact .keptAlive
  | position => exact handles_position

/-! ## Rounds of the loop -/

/-- The state in which a handler is entered. -/
def entered (id : Byte) (s : Connection κ) : Connection κ :=
  emit (.dispatched id) { s with readBuffer := s.readBuffer.advance 1 }

theorem processRound_apply (env : Environment κ) (ambient : Ambient) (s : Connection κ) :
    processRound env ambient s =
      match s.readBuffer.data[s.readBuffer.readPos]? with
      | none => .ok false s
      | some id =>
          match (packetsHandlers env ambient).lookup id with
          | none => .ok false { s with readBuffer := s.readBuffer.advance 1 }
          | some handler =>
              match handler (entered id s) with
              | .ok _ s' => .ok true s'
              | .error e s' => .error e s' := by
  simp only [processRound, bind_apply, get_apply, ite_run, pure_apply, onReadBuffer_apply,
    Buffer.readByte_apply, ge_iff_le]
  cases hd : s.readBuffer.data[s.readBuffer.readPos]? with
  | none =>
      have hle := List.getElem?_eq_none_iff.mp hd
      rw [if_pos hle]
  | some id =>
      have hlt := (List.getElem?_eq_some_iff.mp hd).1
      have hid : s.readBuffer.data.getD s.readBuffer.readPos default = id := by
        simp [List.getD_eq_getElem?_getD, hd]
      rw [if_neg (Nat.not_le.mpr hlt), if_neg (Nat.not_le.mpr hlt)]
      simp only [hid]
      cases (packetsHandlers env ambient).lookup id with
      | none => rfl
      | some handler =>
          simp only [bind_apply, modify_apply, pure_apply]
          have hent : emit (.dispatched id) { s with readBuffer := s.readBuffer.advance 1 } =
              entered id s := rfl
          rw [hent]
          cases handler (entered id s) <;> rfl

theorem processRound_of_lookup {s : Connection κ} {id : Byte} {handler : ConnM κ Unit}
    (hid : s.readBuffer.data[s.readBuffer.readPos]? = some id)
    (hl : (packetsHandlers env ambient).lookup id = some handler) :
    processRound env ambient s = match handler (entered id s) with
      | .ok _ s' => .ok true s'
      | .error e s' => .error e s' := by
  rw [processRound_apply, hid]
  simp only [hl]

/-- How one round of the loop ends. -/
inductive Round (env : Environment κ) (ambient : Ambient) (s : Connection κ) :
    EStateM.Result RuntimeError (Connection κ) Bool → Prop
  | exhausted (h : s.readBuffer.data.length ≤ s.readBuffer.readPos) :
      Round env ambient s (.ok false s)
  | unknown {id : Byte} (hid : s.readBuffer.data[s.readBuffer.readPos]? = some id)
      (hl : (packetsHandlers env ambient).lookup id = none) :
      Round env ambient s (.ok false { s with readBuffer := s.readBuffer.advance 1 })
  | returned {id : Byte} {s' : Connection κ}
      (hid : s.readBuffer.data[s.readBuffer.readPos]? = some id)
      (h : Handles env ambient (entered id s) id (.ok () s')) : Round env ambient s (.ok true s')
  | threw {id : Byte} {e : RuntimeError} {s' : Connection κ}
      (hid : s.readBuffer.data[s.readBuffer.readPos]? = some id)
      (h : Handles env ambient (entered id s) id (.error e s')) :
      Round env ambient s (.error e s')

theorem round_cases (env : Environment κ) (ambient : Ambient) (s : Connection κ) :
    Round env ambient s (processRound env ambient s) := by
  rw [processRound_apply]
  cases hd : s.readBuffer.data[s.readBuffer.readPos]? with
  | none => exact .exhausted (List.getElem?_eq_none_iff.mp hd)
  | some id =>
      simp only
      cases hl : (packetsHandlers env ambient).lookup id with
      | none => exact .unknown hd hl
      | some handler =>
          have hh := handles_of_lookup (s := entered id s) hl
          simp only
          cases hr : handler (entered id s) with
          | ok u s' =>
              rw [hr] at hh
              exact .returned hd hh
          | error e s' =>
              rw [hr] at hh
              exact .threw hd hh

end Connection

end CarpetSrv.Network
