import CarpetSrv.Network.AliveReading
import CarpetSrv.Server.SessionProjection

/-!
# How sessions end

A client that is silent for too long is disconnected by one `tick` and deleted
by the next. A client that keeps the rules and is heard in time is never
removed by the server on its own account. Behind the deletion of its player a
connection lives on for its pending operations, and nothing touches it once
these are gone. `shutdown` is the last step that changes anything, but for a
handler of the context that had begun before it.

## Implementation notes

One thread runs the context, so that at most one handler is in flight when
`shutdown` stops it. A handler that waits for the mutex of the players goes on
when `shutdown` lets go of it, which `finishHandler` models.
-/

namespace CarpetSrv.Network.Connection

open Foundation Packet Utils

variable {κ : Type} {env : Environment κ} {s t : Connection κ}

/-- A connection that is no longer marked alive stays so. -/
theorem stopped_runClosed (env : Environment κ) :
    RunClosed env AnyPacket fun s : Connection κ => s.running = false where
  readBuffer _ h := h
  pendingRead _ h := h
  decryptCtx _ _ h := h
  emit _ h := h
  pinged _ _ h := by simpa [pinged] using h
  unseeded {_ p s} _ _ _ h := by
    unfold versionChecked
    split_ifs <;> simp [h, disconnectWith]
  greeted {_ p s token} _ _ _ h := by
    unfold greeted versionChecked
    split_ifs <;> simp [h, disconnectWith]
  badKey {_ p s} _ _ _ h := by
    unfold tokenChecked
    split_ifs
    · rfl
    · exact h
  loggedIn {_ p s} _ _ _ h := by
    unfold loggedIn tokenChecked
    split_ifs <;> simp [h]
  informed _ h := by simpa [informed] using h
  keptAlive _ h := h
  positioned _ h := by simpa [positioned] using h
  attach _ _ h := h
  completeWrite _ h := h
  abandonWrite h := h
  handleWrite failed size h := by
    unfold handleWrite
    dsimp only
    split_ifs <;> first | rfl | exact h
  disconnect _ := rfl
  disconnectWith _ _ := by simp [disconnectWith]

theorem stopped_step {e : ConnectionEvent} (hstep : step env s e = some t)
    (h : s.running = false) : t.running = false :=
  (stopped_runClosed env).step (eachRead_anyPacket ..)
    (fun _ _ => (addPacketToQueue_running ..).trans h) hstep h

/-- `sendKeepAlive` stops a connection that was silent for more than 20 seconds. -/
theorem sendKeepAlive_stops {now : Int} (h : now - s.lastActivity > 20) :
    (sendKeepAlive env now s).running = false := by
  rw [sendKeepAlive, if_pos h]
  split_ifs
  · simp [disconnectWith]
  · rfl

def isReadFailure : ConnectionEvent → Bool
  | .readFailed => true
  | _ => false

/-- A completion that finds nothing to disconnect for leaves a connected client
connected. A read that fails is no disconnect. -/
theorem Connected.completion {e : ConnectionEvent} (he : Server.isCompletion e = true)
    (hg : isReadFailure e = true ∨ StaysConnected env s e) (hstep : step env s e = some t)
    (h : Connected s) : Connected t := by
  cases step_cases hstep with
  | readCompleted _ _ => exact (connected_readClosed env).readCompleted (hg.resolve_left nofun) h
  | readFailed _ => exact h.congr rfl rfl rfl
  | @writeCompleted w hw _ =>
      have hdone : Connected { s with socket := { s.socket with pendingWrite := none } } :=
        h.congr rfl rfl rfl
      have hcompleted : Connected (completeWrite w s) := hdone.emit rfl
      refine hcompleted.handleWrite fun _ hsize => ?_
      exact hg.resolve_left nofun w hw (List.ne_nil_of_length_pos (Nat.pos_of_ne_zero hsize))
  | writeFailed _ =>
      have hw : Connected { s with socket := { s.socket with pendingWrite := none } } :=
        h.congr rfl rfl rfl
      exact hw.handleWrite nofun
  | handleConnection _ _ => cases he
  | sendKeepAlive => cases he
  | kickPlayer => cases he
  | addPacketToQueue => cases he

end CarpetSrv.Network.Connection

namespace CarpetSrv.Server

open Foundation Network Packet Utils

variable {κ : Type} {env : Environment κ}

namespace Session

variable {s t : Session κ}

/-! ## Deleted players -/

theorem dead_step {f : SessionEvent} (hstep : s.step env f = some t) (h : s.live = false) :
    t.live = false := by
  cases f with
  | completion e =>
      simp only [step] at hstep
      split_ifs at hstep
      obtain ⟨c, _, rfl⟩ := Option.map_eq_some_iff.mp hstep
      exact h
  | tick now =>
      cases hstep
      rw [tick_of_dead _ _ _ h]
      exact h
  | kick reason =>
      cases hstep
      exact kick_live ..

/-- No reference to the connection is left: the player is deleted, and no
operation of asio is pending. -/
structure Released (s : Session κ) : Prop where
  dead : s.live = false
  read : s.connection.socket.pendingRead = false
  write : s.connection.socket.pendingWrite = none

theorem Released.step {f : SessionEvent} (h : s.Released) (hstep : s.step env f = some t) :
    t = s := by
  cases f with
  | completion e =>
      simp only [Session.step] at hstep
      split_ifs at hstep with he
      obtain ⟨c, hc, _⟩ := Option.map_eq_some_iff.mp hstep
      -- Each completion needs the operation that it completes.
      cases Connection.step_cases hc with
      | readCompleted hr _ => cases h.read.symm.trans hr
      | readFailed hr => cases h.read.symm.trans hr
      | writeCompleted hw _ => cases h.write.symm.trans hw
      | writeFailed hw => cases h.write.symm.trans hw
      | handleConnection _ _ => cases he
      | sendKeepAlive => cases he
      | kickPlayer => cases he
      | addPacketToQueue => cases he
  | tick now =>
      cases hstep
      exact tick_of_dead _ _ _ h.dead
  | kick reason =>
      cases hstep
      exact kick_of_dead _ _ _ h.dead

/-! ## Silent clients -/

/-- The player is deleted, or the next `tick` deletes it. -/
def Leaving (s : Session κ) : Prop := s.live = false ∨ s.connection.running = false

theorem Leaving.step {f : SessionEvent} (hstep : s.step env f = some t) (h : s.Leaving) :
    t.Leaving := by
  rcases h with hdead | hstopped
  · exact .inl (dead_step hstep hdead)
  · cases f with
    | completion e =>
        simp only [Session.step] at hstep
        split_ifs at hstep
        obtain ⟨c, hc, rfl⟩ := Option.map_eq_some_iff.mp hstep
        exact .inr (Connection.stopped_step hc hstopped)
    | tick now =>
        cases hstep
        unfold Session.tick
        split_ifs with hl hr
        · cases hstopped.symm.trans hr
        · exact .inl rfl
        · exact .inl (Bool.eq_false_iff.mpr hl)
    | kick reason =>
        cases hstep
        exact .inl (kick_live ..)

theorem Leaving.tick (h : s.Leaving) (now : Int) : (s.tick env now).live = false := by
  unfold Session.tick
  split_ifs with hl hr
  · rcases h with hdead | hstopped
    · cases hdead.symm.trans hl
    · cases hstopped.symm.trans hr
  · rfl
  · exact Bool.eq_false_iff.mpr hl

theorem leaving_of_silent {now : Int} (h : now - s.connection.lastActivity > 20) :
    (s.tick env now).Leaving := by
  unfold Session.tick
  split_ifs with hl hr
  · exact .inr (Connection.sendKeepAlive_stops h)
  · exact .inl rfl
  · exact .inl (Bool.eq_false_iff.mpr hl)

/-- The first `tick` stops the connection of a silent client, and the second
one deletes the player. -/
theorem dead_of_silent {between later : List SessionEvent} {now₁ now₂ : Int}
    (h : now₁ - s.connection.lastActivity > 20)
    (run : GuardedRun (step env) Unguarded s (.tick now₁ :: between ++ .tick now₂ :: later) t) :
    t.live = false := by
  cases run with
  | cons _ hfirst tail =>
      cases hfirst
      obtain ⟨m, hbetween, hrest⟩ := tail.split
      have hleaving : m.Leaving :=
        hbetween.invariant (fun _ _ _ _ hstep => Leaving.step hstep) (leaving_of_silent h)
      cases hrest with
      | cons _ hsecond hlater =>
          cases hsecond
          exact hlater.invariant (I := fun u => u.live = false)
            (fun _ _ _ _ hstep => dead_step hstep) (hleaving.tick now₂)

/-! ## Punctual clients -/

/-- The event does not make the server part with a connected client. -/
def InTime (env : Environment κ) (s : Session κ) : SessionEvent → Prop
  | .completion e =>
      Connection.isReadFailure e = true ∨ Connection.StaysConnected env s.connection e
  | .tick now => now - s.connection.lastActivity ≤ 20
  | .kick _ => False

instance (env : Environment κ) (s : Session κ) : ∀ f, Decidable (InTime env s f)
  | .completion _ => inferInstanceAs (Decidable (_ ∨ _))
  | .tick now => inferInstanceAs (Decidable (now - s.connection.lastActivity ≤ 20))
  | .kick _ => .isFalse id

/-- The player is live and its client has never been disconnected. -/
structure Staying (s : Session κ) : Prop where
  live : s.live = true
  connected : Connection.Connected s.connection

theorem Staying.step {f : SessionEvent} (hg : InTime env s f) (hstep : s.step env f = some t)
    (h : s.Staying) : t.Staying := by
  cases f with
  | completion e =>
      simp only [Session.step] at hstep
      split_ifs at hstep with he
      obtain ⟨c, hc, rfl⟩ := Option.map_eq_some_iff.mp hstep
      exact ⟨h.live, h.connected.completion he hg hc⟩
  | tick now =>
      cases hstep
      have hintime : ¬ now - s.connection.lastActivity > 20 := Int.not_lt.mpr hg
      have hsame : Connection.sendKeepAlive env now s.connection = s.connection := by
        rw [Connection.sendKeepAlive, if_neg hintime]
      rw [Session.tick, if_pos h.live, if_pos h.connected.running, hsame]
      exact h
  | kick reason => exact hg.elim

end Session

/-! ## Runs of the server -/

theorem mem_rosterFrom {k i : Nat} {sessions : List (Session κ)} :
    some i ∈ rosterFrom k sessions ↔
      ∃ j s, i = k + j ∧ sessions[j]? = some s ∧ s.live = true := by
  induction sessions generalizing k with
  | nil => simp [rosterFrom]
  | cons session sessions ih =>
      have hmem : some i ∈ rosterFrom k (session :: sessions) ↔
          (i = k ∧ session.live = true) ∨ some i ∈ rosterFrom (k + 1) sessions := by
        cases hl : session.live with
        | false => simp [rosterFrom_cons_of_dead hl]
        | true => simp [rosterFrom_cons_of_live hl]
      rw [hmem, ih]
      constructor
      · rintro (⟨rfl, hl⟩ | ⟨j, s, rfl, hs, hl⟩)
        · exact ⟨0, session, rfl, rfl, hl⟩
        · exact ⟨j + 1, s, by omega, hs, hl⟩
      · rintro ⟨j, s, rfl, hs, hl⟩
        cases j with
        | zero =>
            cases hs
            exact .inl ⟨rfl, hl⟩
        | succ j => exact .inr ⟨j, s, by omega, hs, hl⟩

namespace VanillaMinecraftServer

variable {srv srv₀ srv₁ srv' : VanillaMinecraftServer κ} {session : Session κ} {i : PlayerId}
  {es es₀ between later : List ServerEvent} {now₁ now₂ : Int}

theorem Rostered.mem_players (h : srv.Rostered) :
    some i ∈ srv.players ↔ ∃ s, srv.sessions[i]? = some s ∧ s.live = true := by
  rw [h.players, mem_rosterFrom]
  constructor
  · rintro ⟨j, s, rfl, hs, hl⟩
    rw [Nat.zero_add]
    exact ⟨s, hs, hl⟩
  · rintro ⟨s, hs, hl⟩
    exact ⟨i, s, (Nat.zero_add i).symm, hs, hl⟩

/-- In every run, a client that has been silent for more than 20 seconds at one
`tick` is deleted and off the list of players from the next `tick` on, whatever
happens in between and afterwards. -/
theorem silent_client_removed (start : GuardedRun (step env) Unguarded {} es₀ srv)
    (hs : srv.sessions[i]? = some session)
    (hsilent : now₁ - session.connection.lastActivity > 20)
    (run : GuardedRun (step env) Unguarded srv (.tick now₁ :: between ++ .tick now₂ :: later)
      srv') :
    some i ∉ srv'.players ∧
      ∃ session', srv'.sessions[i]? = some session' ∧ session'.live = false := by
  have hroster := rostered_empty.of_run start
  obtain ⟨session', hs', hrun⟩ := session_of_run hroster run hs
  have hdead : session'.live = false := by
    simp only [List.filterMap_append, List.filterMap_cons, ServerEvent.seen] at hrun
    exact Session.dead_of_silent hsilent hrun
  refine ⟨?_, session', hs', hdead⟩
  rw [(hroster.of_run run).mem_players]
  rintro ⟨s, hmem, hl⟩
  obtain rfl : session' = s := Option.some.inj (hs'.symm.trans hmem)
  cases hdead.symm.trans hl

/-- The keep-alive behind the first `tick` comes too late, and the address of the
deleted player may be given to another one. -/
theorem silent_client_removed_late : ∃ srv : VanillaMinecraftServer Byte,
    GuardedRun (step chainEnvironment) Unguarded (handleAccept 4096 0 {})
        (.tick 21 :: [.completion 0 (.readCompleted [0x00] chainAmbient)] ++
          .tick 22 :: [.handleAccept 4096 22]) srv ∧
      srv.players = [some 1] ∧ some 0 ∉ srv.players := by
  have hjoin : GuardedRun (step chainEnvironment) Unguarded {} [.handleAccept 4096 0]
      (handleAccept 4096 0 {}) := .cons trivial rfl (.refl _)
  obtain ⟨srv, hrun, hplayers⟩ := exists_guardedRun (step chainEnvironment) Unguarded
    (handleAccept 4096 0 {})
    (.tick 21 :: [.completion 0 (.readCompleted [0x00] chainAmbient)] ++
      .tick 22 :: [.handleAccept 4096 22])
    (fun srv => srv.players = [some 1]) (by decide +kernel)
  have hsilent : (21 : Int) - 0 > 20 := by decide
  exact ⟨srv, hrun, hplayers, (silent_client_removed hjoin rfl hsilent hrun).1⟩

/-- What the event that a session sees keeps, the event of the server keeps. -/
theorem Moves.keeps {I : Session κ → Prop} {e : ServerEvent} {s s' : Session κ}
    (hm : Moves env i e s s')
    (hk : ∀ f, e.seen i s.address = some f → s.step env f = some s' → I s') (hs : I s) :
    I s' := by
  rw [Moves] at hm
  cases hf : e.seen i s.address with
  | none =>
      rw [hf] at hm
      cases hm
      exact hs
  | some f =>
      rw [hf] at hm
      cases hm with
      | cons _ hstep tail =>
          cases tail
          exact hk f hf hstep

/-- The event does not make the server part with the client of session `i`. -/
def Punctual (env : Environment κ) (i : PlayerId) (srv : VanillaMinecraftServer κ)
    (e : ServerEvent) : Prop :=
  ∀ s ∈ srv.sessions[i]?, ∀ f ∈ e.seen i s.address, Session.InTime env s f

instance (env : Environment κ) (i : PlayerId) (srv : VanillaMinecraftServer κ) (e : ServerEvent) :
    Decidable (Punctual env i srv e) :=
  inferInstanceAs (Decidable (∀ s ∈ srv.sessions[i]?, _))

/-- In every run behind its accept, a client that is heard in time, that keeps
the rules of the login and that nobody kicks stays on the list of players, and
its connection is never disconnected. -/
theorem punctual_client_stays {address : Address} {created : Int}
    (start : GuardedRun (step env) Unguarded {} es₀ srv₀)
    (hjoin : step env srv₀ (.handleAccept address created) = some srv₁)
    (run : GuardedRun (step env) (Punctual env srv₀.sessions.length) srv₁ es srv) :
    some srv₀.sessions.length ∈ srv.players ∧
      ∃ session, srv.sessions[srv₀.sessions.length]? = some session ∧
        session.connection.running = true ∧
        ∀ reason, .disconnected reason ∉ session.connection.trace := by
  obtain ⟨hroster, _, kept, hnew, hlen⟩ := step_projects hjoin (rostered_empty.of_run start)
  have haccepted : srv₁.sessions[srv₀.sessions.length]? =
      some (Session.accepted address created) := by
    rw [hnew, ← hlen]
    exact List.getElem?_concat_length
  have hstay : srv.Rostered ∧
      ∃ s, srv.sessions[srv₀.sessions.length]? = some s ∧ s.Staying := by
    refine run.invariant
      (I := fun srv => srv.Rostered ∧ ∃ s, srv.sessions[srv₀.sessions.length]? = some s ∧ s.Staying)
      ?_ ⟨hroster, _, haccepted, rfl, rfl, rfl, rfl⟩
    rintro before e after hg hstep ⟨hr, s, hs, hstays⟩
    obtain ⟨hr', hall, _⟩ := step_projects hstep hr
    obtain ⟨s', hs', _, hm⟩ := hall _ s hs
    exact ⟨hr', s', hs', hm.keeps (fun f hf hfs => hstays.step (hg s hs f hf) hfs) hstays⟩
  obtain ⟨hr, session, hs, hstays⟩ := hstay
  refine ⟨hr.mem_players.mpr ⟨session, hs, hstays.live⟩, session, hs,
    hstays.connected.running, ?_⟩
  intro reason hmem
  have hobs : reason ∈ Connection.observe Connection.disconnection session.connection :=
    Connection.mem_observe.mpr ⟨_, hmem, rfl⟩
  rw [hstays.connected.undisturbed] at hobs
  cases hobs

/-- A client that shakes hands and is heard after 20 seconds, while another one
is kicked. -/
def punctualEvents : List ServerEvent :=
  [.completion 1 (.readCompleted (ClientPacket.clientProtocol 51 [] [] 0).encode chainAmbient),
    .completion 1 .writeCompleted, .tick 20, .requestKickPlayer (some 4096) [0x62],
    .completion 1 (.readCompleted (List.replicate 40 0) ⟨20, none, fun _ => 0⟩), .tick 40]

theorem punctual_client_stays_heard : ∃ srv : VanillaMinecraftServer Byte,
    GuardedRun (step chainEnvironment) (Punctual chainEnvironment 1)
        (handleAccept 8192 0 (handleAccept 4096 0 {})) punctualEvents srv ∧
      some 1 ∈ srv.players ∧ some 0 ∉ srv.players ∧
      ∃ session, srv.sessions[1]? = some session ∧ session.connection.running = true := by
  have hjoin : GuardedRun (step chainEnvironment) Unguarded {} [.handleAccept 4096 0]
      (handleAccept 4096 0 {}) := .cons trivial rfl (.refl _)
  have hsecond : step chainEnvironment (handleAccept 4096 0 {}) (.handleAccept 8192 0) =
      some (handleAccept 8192 0 (handleAccept 4096 0 {})) := by
    simp [step, handleAccept]
  obtain ⟨srv, hrun, hother⟩ := exists_guardedRun (step chainEnvironment)
    (Punctual chainEnvironment 1) (handleAccept 8192 0 (handleAccept 4096 0 {})) punctualEvents
    (fun srv => some 0 ∉ srv.players) (by decide +kernel)
  obtain ⟨hmem, session, hs, halive, _⟩ := punctual_client_stays hjoin hsecond hrun
  exact ⟨srv, hrun, hmem, hother, session, hs, halive⟩

/-- In every run, a connection whose player is deleted and that has no pending
operation is never touched again. -/
theorem released_untouched (start : GuardedRun (step env) Unguarded {} es₀ srv)
    (hs : srv.sessions[i]? = some session) (hr : session.Released)
    (run : GuardedRun (step env) Unguarded srv es srv') : srv'.sessions[i]? = some session := by
  obtain ⟨session', hs', hrun⟩ := session_of_run (rostered_empty.of_run start) run hs
  have hsame : session' = session := by
    refine hrun.invariant (I := fun s => s = session) ?_ rfl
    rintro _ f t _ hstep rfl
    exact hr.step hstep
  rw [hs', hsame]

/-- A client that is kicked gets the reason, and the socket is closed. Its read
then fails, and the connection is released. -/
theorem released_untouched_kicked : ∃ (srv srv' : VanillaMinecraftServer Byte) (s : Session Byte),
    GuardedRun (step chainEnvironment) Unguarded {}
        [.handleAccept 4096 0, .requestKickPlayer (some 4096) [0x62],
          .completion 0 .writeCompleted, .completion 0 .readFailed] srv ∧
      GuardedRun (step chainEnvironment) Unguarded srv
        [.handleAccept 4096 5, .tick 30, .requestKickPlayer (some 4096) [0x62]] srv' ∧
      srv.sessions[0]? = some s ∧ s.Released ∧ srv'.sessions[0]? = some s := by
  obtain ⟨srv, srv', start, hrun, ⟨s, hs, hdead, hread, hwrite⟩, _⟩ := exists_guardedRun_append
    (step chainEnvironment) Unguarded {}
    [.handleAccept 4096 0, .requestKickPlayer (some 4096) [0x62],
      .completion 0 .writeCompleted, .completion 0 .readFailed]
    [.handleAccept 4096 5, .tick 30, .requestKickPlayer (some 4096) [0x62]]
    (fun srv => ∃ s ∈ srv.sessions[0]?, s.live = false ∧
      s.connection.socket.pendingRead = false ∧ s.connection.socket.pendingWrite = none)
    (fun srv => srv.players = []) (by decide +kernel)
  have hr : s.Released := ⟨hdead, hread, hwrite⟩
  exact ⟨srv, srv', s, start, hrun, hs, hr, released_untouched start hs hr hrun⟩

/-- Behind `shutdown` the server is down: the context is stopped and the vector is empty. -/
structure Down (srv : VanillaMinecraftServer κ) : Prop where
  players : srv.players = []
  running : srv.running = false
  ioStopped : srv.ioStopped = true

theorem Down.step {e : ServerEvent} (h : srv.Down) (hstep : step env srv e = some srv') :
    srv' = srv := by
  obtain ⟨running, ioStopped, players, sessions, uses⟩ := srv
  obtain ⟨rfl, rfl, rfl⟩ := h
  cases step_cases hstep with
  | handleAccept hopen _ => cases hopen
  | acceptFailed hopen => cases hopen
  | completion hopen _ _ _ => cases hopen
  | tick => rfl
  | requestKickPlayer => rfl
  | shutdown => rfl

theorem down_of_shutdown (h : srv.Rostered)
    (run : GuardedRun (step env) Unguarded srv (.shutdown :: later) srv') :
    srv'.Down ∧ srv'.sessions = srv.sessions.map (Session.kick env Session.restarting) := by
  cases run with
  | cons _ hstep tail =>
      cases hstep
      have hdown : (srv.shutdown env).Down := ⟨rfl, rfl, rfl⟩
      have hsame : srv' = srv.shutdown env := by
        refine tail.invariant (I := fun s => s = srv.shutdown env) ?_ rfl
        rintro _ e t _ hstep rfl
        exact hdown.step hstep
      rw [hsame]
      exact ⟨hdown, (shutdown_sessions _ h).1⟩

/-- In every run, `shutdown` kicks and deletes every live player and is the last
step that changes anything: whatever follows it leaves the server as it is. -/
theorem shutdown_final (start : GuardedRun (step env) Unguarded {} es₀ srv)
    (run : GuardedRun (step env) Unguarded srv (.shutdown :: later) srv') :
    srv'.Down ∧ srv'.sessions = srv.sessions.map (Session.kick env Session.restarting) :=
  down_of_shutdown (rostered_empty.of_run start) run

/-- A second `shutdown` and a late `tick` find nothing to do. -/
theorem shutdown_final_twice : ∃ srv : VanillaMinecraftServer Byte,
    GuardedRun (step chainEnvironment) Unguarded (handleAccept 4096 0 {})
        [.shutdown, .tick 30, .requestKickPlayer (some 4096) [0x62], .shutdown] srv ∧
      srv.Down ∧ srv.sessions.map Session.live = [false] := by
  have hjoin : GuardedRun (step chainEnvironment) Unguarded {} [.handleAccept 4096 0]
      (handleAccept 4096 0 {}) := .cons trivial rfl (.refl _)
  obtain ⟨srv, hrun, hlive⟩ := exists_guardedRun (step chainEnvironment) Unguarded
    (handleAccept 4096 0 {})
    [.shutdown, .tick 30, .requestKickPlayer (some 4096) [0x62], .shutdown]
    (fun srv => srv.sessions.map Session.live = [false]) (by decide +kernel)
  exact ⟨srv, hrun, (shutdown_final hjoin hrun).1, hlive⟩

/-! ## A handler in flight at the shutdown -/

/-- A handler of the context that had begun before the context was stopped. -/
def finishHandler (env : Environment κ) (srv : VanillaMinecraftServer κ) (e : ServerEvent) :
    Option (VanillaMinecraftServer κ) :=
  (step env { srv with ioStopped := false } e).map fun srv => { srv with ioStopped := true }

def switches (srv : VanillaMinecraftServer κ) : Bool × Bool := (srv.running, srv.ioStopped)

theorem switches_onConnection (srv : VanillaMinecraftServer κ) (i : PlayerId)
    (f : Connection κ → Connection κ) : (srv.onConnection i f).switches = srv.switches := by
  unfold onConnection
  split <;> rfl

theorem switches_kickAndDelete (srv : VanillaMinecraftServer κ) (reason : UTF16String)
    (p : PlayerPtr) : (srv.kickAndDelete env reason p).switches = srv.switches := by
  cases p with
  | none => rfl
  | some i => exact switches_onConnection srv i _

theorem switches_requestKickLoop (player : Option Address) (reason : UTF16String)
    (passed ps : List PlayerPtr) :
    (requestKickLoop env player reason srv passed ps).switches = srv.switches := by
  induction ps generalizing passed with
  | nil => rfl
  | cons p ps ih =>
      rw [requestKickLoop]
      split_ifs
      · exact switches_kickAndDelete srv reason p
      · exact ih _

theorem switches_tickLoop (now : Int) (passed ps : List PlayerPtr) :
    (tickLoop env now srv passed ps).switches = srv.switches := by
  induction ps generalizing srv passed with
  | nil => rfl
  | cons p ps ih =>
      cases p with
      | none => exact ih _
      | some i =>
          rw [tickLoop]
          split_ifs
          · exact (ih _).trans (switches_onConnection srv i _)
          · exact ih _

/-- Only `shutdown` switches anything, and it switches everything off. -/
theorem switches_step {e : ServerEvent} (hstep : step env srv e = some srv') :
    srv'.switches = srv.switches ∨ srv'.switches = (false, true) := by
  cases step_cases hstep with
  | handleAccept _ _ => exact .inl rfl
  | acceptFailed _ => exact .inl rfl
  | completion _ _ _ _ => exact .inl rfl
  | tick => exact .inl (switches_tickLoop _ _ _)
  | requestKickPlayer => exact .inl (switches_requestKickLoop _ _ _ _)
  | shutdown => exact .inr rfl

def IsAccept (e : ServerEvent) : Prop := ∃ address created, e = .handleAccept address created

/-- A live player was live before, or it is that of an accept. -/
theorem live_of_step {e : ServerEvent} {s' : Session κ} (h : srv.Rostered)
    (hstep : step env srv e = some srv') (hs' : srv'.sessions[i]? = some s')
    (hl : s'.live = true) :
    (∃ s, srv.sessions[i]? = some s ∧ s.live = true) ∨
      i = srv.sessions.length ∧ IsAccept e := by
  obtain ⟨_, hall, kept, hnew, hlen⟩ := step_projects hstep h
  have hlt := (List.getElem?_eq_some_iff.mp hs').1
  by_cases hi : i < srv.sessions.length
  · left
    have hs := List.getElem?_eq_getElem hi
    obtain ⟨t, ht, _, hm⟩ := hall i _ hs
    obtain rfl : t = s' := Option.some.inj (ht.symm.trans hs')
    refine ⟨_, hs, ?_⟩
    by_contra hdead
    have hstill : t.live = false := by
      have hwas := Bool.eq_false_iff.mpr hdead
      exact hm.keeps (I := fun s => s.live = false)
        (fun _ _ hstep => Session.dead_step hstep hwas) hwas
    cases hl.symm.trans hstill
  · right
    rw [hnew, List.length_append, hlen] at hlt
    cases e with
    | handleAccept address created =>
        have hlast : i = srv.sessions.length :=
          Nat.le_antisymm (Nat.lt_succ_iff.mp hlt) (Nat.not_lt.mp hi)
        exact ⟨hlast, address, created, rfl⟩
    | acceptFailed | completion _ _ | tick _ | requestKickPlayer _ _ | shutdown =>
        exact absurd hlt hi

/-- The server is down but for what the handler in flight has left behind: the
player of an accept may be live. -/
structure Overtaken (n : Nat) (e : ServerEvent) (srv : VanillaMinecraftServer κ) : Prop where
  roster : srv.Rostered
  off : srv.switches = (false, true)
  live : ∀ i s, srv.sessions[i]? = some s → s.live = true → i = n ∧ IsAccept e

theorem Overtaken.step {n : Nat} {e f : ServerEvent} (h : Overtaken n e srv)
    (hstep : step env srv f = some srv') : Overtaken n e srv' where
  roster := (step_projects hstep h.roster).1
  off := by
    rcases switches_step hstep with hsame | hoff
    · exact hsame.trans h.off
    · exact hoff
  live i s hs hl := by
    rcases live_of_step h.roster hstep hs hl with ⟨s₀, hs₀, hl₀⟩ | ⟨_, address, created, rfl⟩
    · exact h.live i s₀ hs₀ hl₀
    · -- The context takes up no accept any more.
      cases step_cases hstep with
      | handleAccept hopen _ => cases (congrArg Prod.snd h.off).symm.trans hopen

theorem Overtaken.of_down {e : ServerEvent} {m : VanillaMinecraftServer κ} (hdown : srv.Down)
    (hr : srv.Rostered) (hdead : ∀ s ∈ srv.sessions, s.live = false)
    (hfinish : finishHandler env srv e = some m) : Overtaken srv.sessions.length e m := by
  obtain ⟨u, hstep, rfl⟩ := Option.map_eq_some_iff.mp hfinish
  have hopened : Rostered { srv with ioStopped := false } := ⟨hr.players, hr.apart⟩
  have hroster := (step_projects hstep hopened).1
  refine ⟨⟨hroster.players, hroster.apart⟩, ?_, ?_⟩
  · have hrunning : u.running = false := by
      rcases switches_step hstep with hsame | hoff
      · exact (congrArg Prod.fst hsame).trans hdown.running
      · exact congrArg Prod.fst hoff
    rw [switches, hrunning]
  · intro i s hs hl
    rcases live_of_step hopened hstep hs hl with ⟨s₀, hs₀, hl₀⟩ | hnew
    · cases (hdead s₀ (List.mem_of_getElem? hs₀)).symm.trans hl₀
    · exact hnew

/-- In every run in which one handler of the context had begun before `shutdown`
and goes on behind it, the server stays down and the players of all earlier
sessions stay deleted and off the list. The player of an accept that was in
flight is the only one that can be live. -/
theorem shutdown_overtaken {e : ServerEvent} {m m' : VanillaMinecraftServer κ}
    (start : GuardedRun (step env) Unguarded {} es₀ srv)
    (stopped : GuardedRun (step env) Unguarded srv (.shutdown :: between) m)
    (hfinish : finishHandler env m e = some m')
    (run : GuardedRun (step env) Unguarded m' later srv') :
    srv'.running = false ∧ srv'.ioStopped = true ∧
      srv'.players = rosterFrom 0 srv'.sessions ∧
      ∀ i s, srv'.sessions[i]? = some s → s.live = true →
        i = srv.sessions.length ∧ IsAccept e := by
  have hroster := rostered_empty.of_run start
  obtain ⟨hdown, hsessions⟩ := down_of_shutdown hroster stopped
  have hdead : ∀ s ∈ m.sessions, s.live = false := by
    intro s hs
    rw [hsessions] at hs
    obtain ⟨s₀, _, rfl⟩ := List.mem_map.mp hs
    exact s₀.kick_live env _
  have hlen : m.sessions.length = srv.sessions.length := by rw [hsessions, List.length_map]
  have hover := Overtaken.of_down hdown (hroster.of_run stopped) hdead hfinish
  have hend : Overtaken srv.sessions.length e srv' :=
    hlen ▸ run.invariant (fun _ _ _ _ hstep h => h.step hstep) hover
  exact ⟨congrArg Prod.fst hend.off, congrArg Prod.snd hend.off, hend.roster.players, hend.live⟩

/-- A client is accepted while `shutdown` kicks another one. Its player is live
on the list of a server that is down, and a last `tick` does not delete it. -/
theorem shutdown_overtaken_accept : ∃ m m' srv : VanillaMinecraftServer Byte,
    GuardedRun (step chainEnvironment) Unguarded (handleAccept 4096 0 {}) [.shutdown] m ∧
      finishHandler chainEnvironment m (.handleAccept 8192 1) = some m' ∧
      GuardedRun (step chainEnvironment) Unguarded m' [.tick 2] srv ∧
      srv.players = [some 1] ∧ srv.running = false ∧
      ∀ i s, srv.sessions[i]? = some s → s.live = true → i = 1 := by
  have hjoin : GuardedRun (step chainEnvironment) Unguarded {} [.handleAccept 4096 0]
      (handleAccept 4096 0 {}) := .cons trivial rfl (.refl _)
  have hstop : GuardedRun (step chainEnvironment) Unguarded (handleAccept 4096 0 {}) [.shutdown]
      (shutdown chainEnvironment (handleAccept 4096 0 {})) := .cons trivial rfl (.refl _)
  have hfinish : ∃ m' ∈ finishHandler chainEnvironment
      (shutdown chainEnvironment (handleAccept 4096 0 {})) (.handleAccept 8192 1),
      ∃ srv ∈ runGuarded (step chainEnvironment) Unguarded m' [.tick 2],
        srv.players = [some 1] := by decide +kernel
  obtain ⟨m', hm', srv, hrun, hplayers⟩ := hfinish
  obtain ⟨hoff, _, _, hlive⟩ :=
    shutdown_overtaken hjoin hstop hm' (runGuarded_eq_some_iff.mp hrun)
  exact ⟨_, m', srv, hstop, hm', runGuarded_eq_some_iff.mp hrun, hplayers, hoff,
    fun i s hs hl => (hlive i s hs hl).1⟩

end VanillaMinecraftServer

end CarpetSrv.Server
