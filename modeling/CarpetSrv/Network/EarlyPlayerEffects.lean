import CarpetSrv.Network.PacketRound
import CarpetSrv.Network.RunInvariant

/-!
# Effects on the player before the login completes

Before PLAY a client may tell its name and nothing else. The handlers of the
client information and of the position do not look at the status, so a client
sets its language, render distance, cape and position whenever it likes. The
player is left alone exactly where these two packets wait for PLAY.

## Implementation notes

A read completion is looked at round by round, since the status may change
within one. The rounds that start in PLAY are not restricted.
-/

namespace CarpetSrv.Network.Connection

open Foundation Foundation.ExceptState Foundation.BoundedLoop Packet Utils

variable {κ : Type}

/-- The position, the language, the render distance and the cape setting. -/
def settings (player : Player) : Location × CppString × CInt × Bool :=
  (player.location, player.language, player.renderDistance, player.showCape)

/-- The packets whose handlers set these fields. -/
def SetsPlayer : HandledPacket → Prop
  | .clientInfo _ | .playerPosition _ => True
  | .serverPing _ | .clientProtocol _ | .sharedKey _ | .keepAlive => False

/-- The packet whose handler sets the name. -/
def NamesPlayer : HandledPacket → Prop
  | .clientProtocol _ => True
  | .serverPing _ | .sharedKey _ | .clientInfo _ | .keepAlive | .playerPosition _ => False

/-- A packet that sets fields of the player is decoded in PLAY only. -/
def SetsInPlay (_ : Ambient) (p : HandledPacket) (s : Connection κ) : Prop :=
  SetsPlayer p → s.status = .play

/-- No packet that sets fields of the player is decoded before PLAY. -/
def NoEarlyPacket (env : Environment κ) (s : Connection κ) (e : ConnectionEvent) : Prop :=
  EachRead SetsInPlay env s e

/-- A round that starts before PLAY leaves the settings alone, and it changes
the name only for a handshake packet. -/
def RoundLeavesPlayer (env : Environment κ) (ambient : Ambient) (s : Connection κ) : Prop :=
  s.status ≠ .play →
    (after (processRound env ambient) s).player.map settings = s.player.map settings ∧
    ((after (processRound env ambient) s).player ≠ s.player →
      s.readBuffer.data[s.readBuffer.readPos]? = some 0x02)

/-- Every part of an event that starts before PLAY leaves the player alone, up to the name. -/
def LeavesPlayer (env : Environment κ) (s : Connection κ) : ConnectionEvent → Prop
  | .readCompleted bytes ambient =>
      Meets (fun s => s.readBuffer.readPos < bytes.length) (processRound env ambient)
        (RoundLeavesPlayer env ambient) bytes.length
        (decryptReadBuffer env bytes.length (receive bytes s))
  | e => s.status ≠ .play → ∀ t, step env s e = some t → t.player = s.player

/-! ## One round -/

section Round

variable {env : Environment κ} {ambient : Ambient} {s : Connection κ}

theorem disconnectWith_player (reason : UTF16String) (s : Connection κ) :
    (disconnectWith env reason s).player = s.player := by
  simp [disconnectWith]

theorem setUsername_settings (username : CppString) (player : Option Player) :
    (player.map (Player.setUsername username)).map settings = player.map settings := by
  cases player <;> rfl

/-- Handlers of packets that set no fields keep the settings. -/
theorem settings_handlerClosed (env : Environment κ)
    (base : Option (Location × CppString × CInt × Bool)) :
    HandlerClosed env (fun _ p _ => ¬ SetsPlayer p) fun s => s.player.map settings = base where
  readBuffer _ h := h
  dispatched _ h := h
  pinged _ _ h := by
    rw [pinged, emit_player]
    simpa using h
  unseeded _ _ _ h := by rwa [versionChecked_player, setUsername_settings]
  greeted {_ p s _} _ _ _ h := by
    have hv : (versionChecked env p s).player.map settings = base := by
      rwa [versionChecked_player, setUsername_settings]
    rw [greeted, emit_player]
    simpa using hv
  badKey _ _ _ h := by rwa [tokenChecked_player]
  loggedIn _ _ _ h := by
    rw [loggedIn, emit_player]
    simpa using h
  informed hq _ := absurd trivial hq
  keptAlive _ h := h
  positioned hq _ := absurd trivial hq

/-- Handlers of packets that neither set fields nor the name keep the player. -/
theorem player_handlerClosed (env : Environment κ) (base : Option Player) :
    HandlerClosed env (fun _ p _ => ¬ SetsPlayer p ∧ ¬ NamesPlayer p) fun s => s.player = base where
  readBuffer _ h := h
  dispatched _ h := h
  pinged _ _ h := by
    rw [pinged, emit_player]
    simpa using h
  unseeded _ hq _ _ := absurd trivial hq.2
  greeted _ hq _ _ := absurd trivial hq.2
  badKey _ _ _ h := by rwa [tokenChecked_player]
  loggedIn _ _ _ h := by
    rw [loggedIn, emit_player]
    simpa using h
  informed hq _ := absurd trivial hq.1
  keptAlive _ h := h
  positioned hq _ := absurd trivial hq.1

theorem decodeWith_eq_some {α : Type} {f : α → HandledPacket} {m : BufferReader α}
    {x : HandledPacket × Connection κ} (h : decodeWith f m s = some x) :
    (∃ p, x.1 = f p) ∧ x.2.status = s.status := by
  unfold decodeWith at h
  split at h
  · cases h
    exact ⟨⟨_, rfl⟩, rfl⟩
  · cases h

/-- A decoded packet is looked at in the status in which its handler was called,
and a handshake packet has its own id. -/
theorem decode_eq_some {id : Byte} {x : HandledPacket × Connection κ}
    (h : decode env ambient id s = some x) :
    x.2.status = s.status ∧ (NamesPlayer x.1 → id = 0x02) := by
  unfold decode at h
  split_ifs at h with hping hhandshake hkey hinfo halive hposition
  · obtain ⟨⟨p, hp⟩, hst⟩ := decodeWith_eq_some h
    exact ⟨hst, by rw [hp]; exact False.elim⟩
  · exact ⟨(decodeWith_eq_some h).2, fun _ => hhandshake.1⟩
  · obtain ⟨⟨p, hp⟩, hst⟩ := decodeWith_eq_some h
    exact ⟨hst, by rw [hp]; exact False.elim⟩
  · obtain ⟨⟨p, hp⟩, hst⟩ := decodeWith_eq_some h
    exact ⟨hst, by rw [hp]; exact False.elim⟩
  · cases h
    exact ⟨rfl, False.elim⟩
  · obtain ⟨⟨p, hp⟩, hst⟩ := decodeWith_eq_some h
    exact ⟨hst, by rw [hp]; exact False.elim⟩

theorem nextDecoded_eq_some {x : HandledPacket × Connection κ}
    (h : nextDecoded env ambient s = some x) :
    x.2.status = s.status ∧
      (NamesPlayer x.1 → s.readBuffer.data[s.readBuffer.readPos]? = some 0x02) := by
  obtain ⟨id, hid, hd⟩ := Option.bind_eq_some_iff.mp h
  obtain ⟨hst, hname⟩ := decode_eq_some hd
  refine ⟨hst, fun hx => ?_⟩
  rw [hid, hname hx]

theorem round_leavesPlayer (hq : ∀ x ∈ nextDecoded env ambient s, SetsInPlay ambient x.1 x.2) :
    RoundLeavesPlayer env ambient s := by
  intro hst
  have hsets : ∀ x ∈ nextDecoded env ambient s, ¬ SetsPlayer x.1 := by
    intro x hx hset
    exact hst ((nextDecoded_eq_some hx).1.symm.trans (hq x hx hset))
  constructor
  · exact (settings_handlerClosed env (s.player.map settings)).processRound hsets rfl
  · intro hchanged
    by_contra hid
    apply hchanged
    apply (player_handlerClosed env s.player).processRound _ rfl
    intro x hx
    exact ⟨hsets x hx, fun hname => hid ((nextDecoded_eq_some hx).2 hname)⟩

end Round

/-! ## Runs -/

section Run

variable {env : Environment κ} {s t : Connection κ}

theorem handleWrite_player (failed : Bool) (size : Nat) (s : Connection κ) :
    (handleWrite failed size s).player = s.player := by
  unfold handleWrite
  dsimp only
  split_ifs <;> rfl

/-- Once the player is attached, only a read completion changes it. -/
theorem step_player {e : ConnectionEvent} (hattached : s.player.isSome = true)
    (he : ∀ bytes ambient, e ≠ .readCompleted bytes ambient) (hstep : step env s e = some t) :
    t.player = s.player := by
  cases step_cases hstep with
  | handleConnection hp _ =>
      rw [hp] at hattached
      cases hattached
  | readCompleted _ _ => exact absurd rfl (he _ _)
  | readFailed _ => rfl
  | writeCompleted _ _ => exact handleWrite_player ..
  | writeFailed _ => exact handleWrite_player ..
  | sendKeepAlive =>
      exact sendKeepAlive_keeps (I := fun t => t.player = s.player) _
        (fun reason => disconnectWith_player reason s) rfl rfl
  | kickPlayer => exact disconnectWith_player ..
  | addPacketToQueue => exact addPacketToQueue_player ..

/-- A step before PLAY that meets the condition leaves the player alone. -/
theorem leavesPlayer_of_noEarlyPacket {e : ConnectionEvent} (hattached : s.player.isSome = true)
    (hq : NoEarlyPacket env s e) : LeavesPlayer env s e := by
  cases e with
  | readCompleted bytes ambient => exact Meets.mono _ _ (fun _ h => round_leavesPlayer h) hq
  | handleConnection _ | readFailed | writeCompleted | writeFailed _ | sendKeepAlive _
  | kickPlayer _ | addPacketToQueue _ =>
      intro _ t hstep
      apply step_player hattached _ hstep
      rintro _ _ ⟨⟩

/-- The player of the connection. Its settings are still these before PLAY. -/
structure Fresh (base : Location × CppString × CInt × Bool) (s : Connection κ) : Prop where
  attached : s.player.isSome = true
  settings : s.status ≠ .play → s.player.map settings = some base

theorem Fresh.congr {base : Location × CppString × CInt × Bool} (h : Fresh base s)
    (hst : t.status = s.status) (hp : t.player = s.player) : Fresh base t := by
  refine ⟨?_, fun ht => ?_⟩
  · rw [hp]
    exact h.attached
  · rw [hp]
    exact h.settings (fun hs => ht (hst.trans hs))

theorem Fresh.of_play {base : Location × CppString × CInt × Bool} (h : Fresh base s)
    (hst : t.status = .play) (hp : t.player.isSome = s.player.isSome) : Fresh base t :=
  ⟨hp.trans h.attached, fun hne => (hne hst).elim⟩

theorem Fresh.named {base : Location × CppString × CInt × Bool} (h : Fresh base s)
    (hs : s.status ≠ .play) (username : CppString)
    (hp : t.player = s.player.map (Player.setUsername username)) : Fresh base t := by
  refine ⟨?_, fun _ => ?_⟩
  · rw [hp, Option.isSome_map]
    exact h.attached
  · rw [hp, setUsername_settings]
    exact h.settings hs

theorem fresh_runClosed (env : Environment κ) (base : Location × CppString × CInt × Bool) :
    RunClosed env SetsInPlay (Fresh base) where
  readBuffer _ h := h.congr rfl rfl
  pendingRead _ h := h.congr rfl rfl
  decryptCtx _ _ h := h.congr rfl rfl
  emit _ h := h.congr rfl rfl
  pinged hst _ h := by
    refine ⟨?_, fun _ => ?_⟩
    · rw [pinged, emit_player]
      simpa using h.attached
    · rw [pinged, emit_player]
      simpa using h.settings (by simp [hst])
  unseeded hst _ _ h := h.named (by simp [hst]) _ (versionChecked_player _)
  greeted hst _ _ h := h.named (by simp [hst]) _
    ((addPacketToQueue_player ..).trans (versionChecked_player _))
  badKey _ _ _ h := h.congr (tokenChecked_status ..) (tokenChecked_player ..)
  loggedIn _ _ _ h := h.of_play rfl (by simp [loggedIn])
  informed hq h := h.of_play ((usePlayer_status ..).trans (hq trivial)) (by simp [informed])
  keptAlive _ h := h.congr rfl rfl
  positioned hq h := h.of_play ((usePlayer_status ..).trans (hq trivial)) (by simp [positioned])
  attach _ hp h := by
    have hattached := h.attached
    rw [hp] at hattached
    cases hattached
  completeWrite _ h := h.congr rfl rfl
  abandonWrite h := h.congr rfl rfl
  handleWrite _ _ h := h.congr (handleWrite_status ..) (handleWrite_player ..)
  disconnect h := h.congr rfl rfl
  disconnectWith _ h := h.congr (disconnectWith_status ..) (disconnectWith_player ..)

/-- In every run without an early packet, a player whose connection is not in
PLAY has the settings it was attached with, and every further step without one
leaves it alone before PLAY, up to the name from the handshake packet. -/
theorem player_untouched_before_play {player : Player} {now : Int} {es : List ConnectionEvent}
    (run : GuardedRun (step env) (NoEarlyPacket env) (opened player now) es s) :
    (s.status ≠ .play → s.player.map settings = some (settings player)) ∧
      ∀ e, NoEarlyPacket env s e → LeavesPlayer env s e := by
  have hfresh : Fresh (settings player) s := by
    refine run.invariant (fun s e t hq hstep h => ?_) ⟨rfl, fun _ => rfl⟩
    apply (fresh_runClosed env _).step hq _ hstep h
    rintro packet _
    exact h.congr (addPacketToQueue_status ..) (addPacketToQueue_player ..)
  exact ⟨hfresh.settings, fun e hq => leavesPlayer_of_noEarlyPacket hfresh.attached hq⟩

end Run

instance : ∀ p : HandledPacket, Decidable (SetsPlayer p)
  | .clientInfo _ | .playerPosition _ => .isTrue trivial
  | .serverPing _ | .clientProtocol _ | .sharedKey _ | .keepAlive => .isFalse id

instance (ambient : Ambient) (p : HandledPacket) (s : Connection κ) :
    Decidable (SetsInPlay ambient p s) :=
  inferInstanceAs (Decidable (SetsPlayer p → s.status = .play))

instance (env : Environment κ) (s : Connection κ) (e : ConnectionEvent) :
    Decidable (NoEarlyPacket env s e) :=
  inferInstanceAs (Decidable (EachRead SetsInPlay env s e))

/-- A handshake names the player and leaves its settings. -/
theorem player_untouched_before_play_handshake : ∃ s : Connection Byte,
    GuardedRun (step chainEnvironment) (NoEarlyPacket chainEnvironment) (opened {} 0)
      [.readCompleted (ClientPacket.clientProtocol 51 [0x61] [] 0).encode chainAmbient] s ∧
      s.player.map Player.name = some [0x61] ∧ s.player.map settings = some (settings {}) := by
  obtain ⟨s, hrun, hst, hname⟩ := exists_guardedRun (step chainEnvironment)
    (NoEarlyPacket chainEnvironment) (opened {} 0)
    [.readCompleted (ClientPacket.clientProtocol 51 [0x61] [] 0).encode chainAmbient]
    (fun s => s.status ≠ .play ∧ s.player.map Player.name = some [0x61]) (by decide +kernel)
  exact ⟨s, hrun, hname, (player_untouched_before_play hrun).1 hst⟩

/-- A position packet moves the player of a connection that is in HANDSHAKE. -/
theorem position_before_handshake : ∃ s : Connection Byte,
    GuardedRun (step chainEnvironment) Unguarded (opened {} 0)
      [.readCompleted (ClientPacket.playerPosition 1 2 3 4 1).encode chainAmbient] s ∧
      s.status = .handshake ∧ s.player.map settings ≠ some (settings {}) :=
  exists_guardedRun _ _ _ _ _ (by decide +kernel)

end CarpetSrv.Network.Connection
