import CarpetSrv.Network.RunInvariant

/-!
# The authentication gate

A client enters PLAY through two handlers. The first should only let protocol
version 51 pass, the second only the verify token that was sent out. Both call
`disconnect` on a mismatch and go on, so neither stops anybody. The gate holds
in the runs in which no mismatch reaches them.

## Implementation notes

The four effects that make up the gate are observed as one list, which has one
shape in each status.
-/

namespace CarpetSrv.Network.Connection

open Foundation Foundation.ExceptState Packet Utils

variable {κ : Type}

/-! ## What passes the gate -/

inductive GateEvent
  | token (token : List Byte)
  | handshake (p : ClientProtocolPacket)
  | login
  | sharedKey (p : SharedKeyPacket)
  deriving DecidableEq

def gateEvent : Effect → Option GateEvent
  | .enqueued (.serverAuthData p) => some (.token p.verifyToken)
  | .enqueued (.login _) => some .login
  | .handled (.clientProtocol p) => some (.handshake p)
  | .handled (.sharedKey p) => some (.sharedKey p)
  | _ => none

/-- The token of a `ServerAuthDataPacket` that was queued. -/
def generatedToken : Effect → Option (List Byte)
  | .enqueued (.serverAuthData p) => some p.verifyToken
  | _ => none

def acceptedHandshake : Effect → Option ClientProtocolPacket
  | .handled (.clientProtocol p) => some p
  | _ => none

def acceptedSharedKey : Effect → Option SharedKeyPacket
  | .handled (.sharedKey p) => some p
  | _ => none

/-- One handshake and one shared key were accepted, for the one token that was
generated, and both are what the gate asks for. -/
def Authenticated (s : Connection κ) : Prop :=
  ∃ handshake token sharedKey, observe acceptedHandshake s = [handshake] ∧
    observe generatedToken s = [token] ∧ observe acceptedSharedKey s = [sharedKey] ∧
    handshake.protocolVersion = 51 ∧ sharedKey.verifyToken = token

/-- The packets on which neither handler reaches its mismatch branch and goes on. -/
def Matching (ambient : Ambient) : HandledPacket → Connection κ → Prop
  | .clientProtocol p, _ => ambient.rand.isSome → p.protocolVersion = 51
  | .sharedKey p, s => p.sharedSecret.length = 16 → p.verifyToken = s.verifyToken
  | _, _ => True

instance (ambient : Ambient) : ∀ (p : HandledPacket) (s : Connection κ),
    Decidable (Matching ambient p s)
  | .clientProtocol p, _ =>
      inferInstanceAs (Decidable (ambient.rand.isSome → p.protocolVersion = 51))
  | .sharedKey p, s =>
      inferInstanceAs (Decidable (p.sharedSecret.length = 16 → p.verifyToken = s.verifyToken))
  | .serverPing _, _ | .clientInfo _, _ | .keepAlive, _ | .playerPosition _, _ => .isTrue trivial

/-- An event of a connection that its own handlers alone write to. -/
def Unassisted : ConnectionEvent → Prop
  | .addPacketToQueue _ => False
  | _ => True

instance : ∀ e : ConnectionEvent, Decidable (Unassisted e)
  | .addPacketToQueue _ => .isFalse id
  | .handleConnection _ | .readCompleted _ _ | .readFailed | .writeCompleted | .writeFailed _
  | .sendKeepAlive _ | .kickPlayer _ => .isTrue trivial

/-- Every handshake and every shared key that is decoded matches. -/
def MatchingRead (env : Environment κ) (s : Connection κ) (e : ConnectionEvent) : Prop :=
  Unassisted e ∧ EachRead Matching env s e

instance (env : Environment κ) (s : Connection κ) (e : ConnectionEvent) :
    Decidable (MatchingRead env s e) :=
  inferInstanceAs (Decidable (_ ∧ _))

/-! ## The invariant -/

/-- What has passed the gate in each status. -/
def Gate (s : Connection κ) : Prop :=
  match s.status with
  | .handshake | .ping => observe gateEvent s = []
  | .login => ∃ p : ClientProtocolPacket, p.protocolVersion = 51 ∧
      observe gateEvent s = [.token s.verifyToken, .handshake p]
  | .play => ∃ (p : ClientProtocolPacket) (sk : SharedKeyPacket), p.protocolVersion = 51 ∧
      sk.verifyToken = s.verifyToken ∧
      observe gateEvent s = [.token s.verifyToken, .handshake p, .login, .sharedKey sk]

theorem Gate.congr {s t : Connection κ} (h : Gate s) (hst : t.status = s.status)
    (htok : t.verifyToken = s.verifyToken) (hobs : observe gateEvent t = observe gateEvent s) :
    Gate t := by
  unfold Gate at h ⊢
  rw [hst, htok, hobs]
  exact h

theorem gateEvent_of_isReading {e : Effect} (h : e.isReading = true) : gateEvent e = none := by
  cases e <;> first | rfl | cases h

theorem Gate.of_create (now : Int) : Gate (create now : Connection κ) := rfl

section Methods

variable {env : Environment κ} {s : Connection κ}

theorem Gate.disconnectWith (reason : UTF16String) (h : Gate s) :
    Gate (disconnectWith env reason s) := by
  apply h.congr (disconnectWith_status ..) (disconnectWith_verifyToken ..)
  simp [observe_disconnectWith env reason s (f := gateEvent) (fun _ _ => rfl) rfl, gateEvent]

theorem Gate.disconnect (h : Gate s) : Gate (disconnect s) :=
  h.congr rfl rfl (observe_emit_none rfl _)

theorem Gate.usePlayer (f : Player → Player) (h : Gate s) : Gate (usePlayer f s) :=
  h.congr (usePlayer_status f s) (usePlayer_verifyToken f s) (observe_usePlayer f s rfl)

theorem Gate.emit {e : Effect} (he : gateEvent e = none) (h : Gate s) : Gate (emit e s) :=
  h.congr rfl rfl (observe_emit_none he s)

theorem Gate.handleWrite (failed : Bool) (size : Nat) (h : Gate s) :
    Gate (handleWrite failed size s) :=
  h.congr (handleWrite_status ..) (handleWrite_verifyToken ..)
    (observe_handleWrite (f := gateEvent) rfl rfl failed size s)

/-! ## The handlers -/

theorem Gate.versionChecked (p : ClientProtocolPacket) (h : Gate s) :
    Gate (versionChecked env p s) :=
  versionChecked_keeps Gate.usePlayer (fun _ _ => h.disconnectWith _) h

theorem Gate.tokenChecked (p : SharedKeyPacket) (h : Gate s) : Gate (tokenChecked p s) :=
  h.congr (tokenChecked_status s p) (tokenChecked_verifyToken s p) (observe_tokenChecked s rfl p)

theorem Gate.pinged (p : ServerPingPacket) (hst : s.status = .handshake) (h : Gate s) :
    Gate (pinged env p s) := by
  have hobs : observe gateEvent s = [] := by simpa only [Gate, hst] using h
  have hp := observe_pinged env s (f := gateEvent) (fun _ _ => rfl) p
  rw [hobs] at hp
  exact hp

theorem Gate.greeted {token : Vector Byte 4} {p : ClientProtocolPacket}
    (hst : s.status = .handshake) (hv : p.protocolVersion = 51) (h : Gate s) :
    Gate (greeted env token p s) := by
  have hobs : observe gateEvent (Connection.versionChecked env p s) = [] := by
    have hv : Gate (Connection.versionChecked env p s) := h.versionChecked p
    simpa only [Gate, versionChecked_status, hst] using hv
  have hg := observe_greeted env s (f := gateEvent) (fun _ _ => rfl) token p
  rw [hobs] at hg
  refine ⟨p, hv, ?_⟩
  rw [greeted_verifyToken]
  exact hg

theorem Gate.loggedIn {cipher : AESCipher κ} {sk : SharedKeyPacket} (hst : s.status = .login)
    (hsk : sk.verifyToken = s.verifyToken) (h : Gate s) : Gate (loggedIn env cipher sk s) := by
  obtain ⟨p, hv, hobs⟩ : ∃ p : ClientProtocolPacket, p.protocolVersion = 51 ∧
      observe gateEvent s = [.token s.verifyToken, .handshake p] := by
    simpa only [Gate, hst] using h
  have hl := observe_loggedIn env s (f := gateEvent) (fun _ _ => rfl) cipher sk
  rw [observe_tokenChecked s rfl, hobs] at hl
  refine ⟨p, sk, hv, ?_, ?_⟩
  · rw [loggedIn_verifyToken, hsk]
  · rw [loggedIn_verifyToken]
    exact hl

theorem Gate.informed (p : ClientInfoPacket) (h : Gate s) : Gate (informed p s) :=
  (h.usePlayer _).emit rfl

theorem Gate.positioned (p : PlayerPositionPacket) (h : Gate s) : Gate (positioned p s) :=
  (h.usePlayer _).emit rfl

end Methods

/-- No handler and no call of the server leaves the gate when only matching
packets reach it. -/
theorem gate_runClosed (env : Environment κ) : RunClosed env Matching Gate where
  readBuffer _ h := h
  pendingRead _ h := h
  decryptCtx _ _ h := h
  emit he h := h.emit (gateEvent_of_isReading he)
  pinged hst _ h := h.pinged _ hst
  unseeded _ _ _ h := h.versionChecked _
  greeted hst hm hrand h := h.greeted hst (hm (by rw [hrand]; rfl))
  badKey _ _ _ h := h.tokenChecked _
  loggedIn hst hm hlen h := h.loggedIn hst (hm hlen)
  informed _ h := h.informed _
  keptAlive _ h := Gate.emit rfl h
  positioned _ h := h.positioned _
  attach _ _ h := h
  completeWrite _ h := Gate.emit rfl h
  abandonWrite h := h
  handleWrite failed size h := h.handleWrite failed size
  disconnect h := h.disconnect
  disconnectWith reason h := h.disconnectWith reason

theorem Gate.step {env : Environment κ} {s t : Connection κ} {e : ConnectionEvent}
    (hm : MatchingRead env s e) (hstep : step env s e = some t) (h : Gate s) : Gate t := by
  apply (gate_runClosed env).step hm.2 _ hstep h
  rintro packet rfl
  exact hm.1.elim

/-! ## The gate -/

/-- What the three observers see is among the events of the gate. -/
theorem observers_eq (e : Effect) :
    (acceptedHandshake e = (gateEvent e).bind fun
      | .handshake p => some p
      | _ => none) ∧
    (generatedToken e = (gateEvent e).bind fun
      | .token token => some token
      | _ => none) ∧
    (acceptedSharedKey e = (gateEvent e).bind fun
      | .sharedKey p => some p
      | _ => none) := by
  cases e with
  | handled p => cases p <;> exact ⟨rfl, rfl, rfl⟩
  | enqueued p => cases p <;> exact ⟨rfl, rfl, rfl⟩
  | _ => exact ⟨rfl, rfl, rfl⟩

theorem login_mem_of_enqueued {s : Connection κ} (h : .enqueued (.login {}) ∈ s.trace) :
    GateEvent.login ∈ observe gateEvent s :=
  mem_observe.mpr ⟨_, h, rfl⟩

theorem Gate.authenticated {s : Connection κ} (h : Gate s)
    (hs : s.status = .play ∨ .enqueued (.login {}) ∈ s.trace) : Authenticated s := by
  have hplay : s.status = .play := by
    rcases hs with hs | hs
    · exact hs
    · have hmem := login_mem_of_enqueued hs
      cases hst : s.status with
      | play => rfl
      | handshake | ping =>
          rw [show observe gateEvent s = [] by simpa only [Gate, hst] using h] at hmem
          cases hmem
      | login =>
          obtain ⟨p, _, hobs⟩ : ∃ p : ClientProtocolPacket, p.protocolVersion = 51 ∧
              observe gateEvent s = [.token s.verifyToken, .handshake p] := by
            simpa only [Gate, hst] using h
          rw [hobs] at hmem
          simp at hmem
  obtain ⟨p, sk, hv, hsk, hobs⟩ : ∃ (p : ClientProtocolPacket) (sk : SharedKeyPacket),
      p.protocolVersion = 51 ∧ sk.verifyToken = s.verifyToken ∧
      observe gateEvent s = [.token s.verifyToken, .handshake p, .login, .sharedKey sk] := by
    simpa only [Gate, hplay] using h
  refine ⟨p, s.verifyToken, sk, ?_, ?_, ?_, hv, hsk⟩
  · rw [observe_bind fun e => (observers_eq e).1, hobs]
    rfl
  · rw [observe_bind fun e => (observers_eq e).2.1, hobs]
    rfl
  · rw [observe_bind fun e => (observers_eq e).2.2, hobs]
    rfl

/-- In every run whose packets match, a connection that has reached PLAY or
has queued a login packet is authenticated. -/
theorem authenticated_of_matching_run {env : Environment κ} {now : Int}
    {es : List ConnectionEvent} {s : Connection κ}
    (run : GuardedRun (step env) (MatchingRead env) (create now) es s)
    (hs : s.status = .play ∨ .enqueued (.login {}) ∈ s.trace) : Authenticated s :=
  (run.invariant (fun _ _ _ hm hstep h => Gate.step hm hstep h) (Gate.of_create now)).authenticated
    hs

theorem authenticated_of_matching_run_honest : ∃ s,
    GuardedRun (step chainEnvironment) (MatchingRead chainEnvironment) (create 0)
      (loginEvents 51 [1, 2, 3, 4]) s ∧ s.status = .play ∧ Authenticated s := by
  obtain ⟨s, hrun, hs⟩ := exists_guardedRun
      (step chainEnvironment) (MatchingRead chainEnvironment) (create 0)
      (loginEvents 51 [1, 2, 3, 4])
      (fun s => s.status = .play) (by decide +kernel)
  exact ⟨s, hrun, hs, authenticated_of_matching_run hrun (.inl hs)⟩

/-- A client of version 0 with a wrong token enters PLAY and is sent a login packet. -/
theorem play_without_authentication : ∃ s,
    GuardedRun (step chainEnvironment) Unguarded (create 0) (loginEvents 0 [9, 9]) s ∧
      s.status = .play ∧ .enqueued (.login {}) ∈ s.trace ∧ ¬ Authenticated s := by
  obtain ⟨s, hrun, hs, hl, hh, ht, hk⟩ := exists_guardedRun
      (step chainEnvironment) Unguarded (create 0)
      (loginEvents 0 [9, 9])
      (fun s => s.status = .play ∧ .enqueued (.login {}) ∈ s.trace ∧
      observe acceptedHandshake s = [⟨0, [], [], 0⟩] ∧
      observe generatedToken s = [[1, 2, 3, 4]] ∧
      observe acceptedSharedKey s = [⟨List.replicate 16 7, [9, 9]⟩]) (by decide +kernel)
  refine ⟨s, hrun, hs, hl, ?_⟩
  rintro ⟨p, token, sk, hp, _, _, hv, _⟩
  rw [hh] at hp
  cases hp
  cases hv

end CarpetSrv.Network.Connection
