import CarpetSrv.Server.SessionLifetime

/-!
# The connection of a session

Behind every run of the server, the connection of a session is behind a run of
its own: it was created and started, and then got its completions, the ticks
of the server while it was alive, and at most one kick. Nobody but its own
methods queues a packet.

## Implementation notes

What holds of a connection in every such run thereby holds of every connection
that the server has, as long as no deleted player is used.
-/

namespace CarpetSrv.Server

open Foundation Network Packet Utils

variable {κ : Type} {env : Environment κ}

/-! ## What a connection is told -/

/-- The event is one that the server or asio brings to a started connection. -/
def IsServed : ConnectionEvent → Prop
  | .readCompleted .. | .readFailed | .writeCompleted | .writeFailed _ | .sendKeepAlive _
  | .kickPlayer _ => True
  | .handleConnection _ | .addPacketToQueue _ => False

def keepAliveTime : ConnectionEvent → Option Int
  | .sendKeepAlive now => some now
  | _ => none

def kickReason : ConnectionEvent → Option UTF16String
  | .kickPlayer reason => some reason
  | _ => none

namespace SessionEvent

def completed : SessionEvent → Option ConnectionEvent
  | .completion e => some e
  | _ => none

def tickTime : SessionEvent → Option Int
  | .tick now => some now
  | _ => none

def kicked : SessionEvent → Option UTF16String
  | .kick reason => some reason
  | _ => none

end SessionEvent

theorem isServed_of_isCompletion {e : ConnectionEvent} (h : isCompletion e = true) :
    IsServed e ∧ keepAliveTime e = none ∧ kickReason e = none := by
  cases e <;> first | exact ⟨trivial, rfl, rfl⟩ | cases h

/-- The events of a connection that follow those of its session: every
completion, the ticks for as long as the connection was alive, and the first
kick. -/
structure Follows (seen : List SessionEvent) (told : List ConnectionEvent) : Prop where
  served : ∀ e ∈ told, IsServed e
  completions : told.filter (isCompletion ·) = seen.filterMap SessionEvent.completed
  ticks : told.filterMap keepAliveTime <+: seen.filterMap SessionEvent.tickTime
  kicks : told.filterMap kickReason <+: seen.filterMap SessionEvent.kicked
  once : (told.filterMap kickReason).length ≤ 1

namespace Session

/-- A session, the events that it has seen, and those its connection was told. -/
structure Told (env : Environment κ) (start : Connection κ) (seen : List SessionEvent)
    (told : List ConnectionEvent) (s : Session κ) : Prop extends Follows seen told where
  run : GuardedRun (Connection.step env) Unguarded start told s.connection
  unkicked : s.live = true → seen.filterMap SessionEvent.kicked = []
  heard : s.live = true → s.connection.running = true →
    told.filterMap keepAliveTime = seen.filterMap SessionEvent.tickTime

namespace Told

variable {start : Connection κ} {seen : List SessionEvent} {told : List ConnectionEvent}
  {s : Session κ} {c : Connection κ} {e : ConnectionEvent}

theorem completion (h : Told env start seen told s) (he : isCompletion e = true)
    (hstep : Connection.step env s.connection e = some c) :
    Told env start (seen ++ [.completion e]) (told ++ [e]) { s with connection := c } := by
  obtain ⟨hserved, hnone, hkick⟩ := isServed_of_isCompletion he
  have htick : (seen ++ [SessionEvent.completion e]).filterMap SessionEvent.tickTime =
      seen.filterMap SessionEvent.tickTime := by
    simp [List.filterMap_cons, SessionEvent.tickTime]
  have hkicked : (seen ++ [SessionEvent.completion e]).filterMap SessionEvent.kicked =
      seen.filterMap SessionEvent.kicked := by
    simp [List.filterMap_cons, SessionEvent.kicked]
  refine ⟨⟨?_, ?_, ?_, ?_, ?_⟩, ?_, ?_, ?_⟩
  · simpa [or_imp, forall_and, hserved] using h.served
  · simp [h.completions, he, SessionEvent.completed]
  · simpa [htick, hnone] using h.ticks
  · simpa [hkicked, hkick] using h.kicks
  · simpa [hkick] using h.once
  · exact h.run.append (.cons trivial hstep (.refl _))
  · rw [hkicked]
    exact h.unkicked
  · intro hl hr
    have hwas : s.connection.running = true := by
      by_contra hstopped
      have := Connection.stopped_step hstep (Bool.eq_false_iff.mpr hstopped)
      cases hr.symm.trans this
    simpa [htick, hnone] using h.heard hl hwas

/-- A `tick` that finds the connection alive tells it. -/
theorem heardTick (h : Told env start seen told s) (now : Int) (hl : s.live = true)
    (hr : s.connection.running = true) :
    Told env start (seen ++ [.tick now]) (told ++ [.sendKeepAlive now])
      { s with connection := Connection.sendKeepAlive env now s.connection } := by
  have hboth := h.heard hl hr
  have hkicked : (seen ++ [SessionEvent.tick now]).filterMap SessionEvent.kicked =
      seen.filterMap SessionEvent.kicked := by
    simp [List.filterMap_cons, SessionEvent.kicked]
  have hheard : (told ++ [ConnectionEvent.sendKeepAlive now]).filterMap keepAliveTime =
      (seen ++ [SessionEvent.tick now]).filterMap SessionEvent.tickTime := by
    simp [keepAliveTime, SessionEvent.tickTime, hboth]
  refine ⟨⟨?_, ?_, hheard ▸ List.prefix_refl _, ?_, ?_⟩, ?_, ?_, fun _ _ => hheard⟩
  · simpa [or_imp, forall_and, IsServed] using h.served
  · rw [List.filter_append, List.filterMap_append, h.completions]
    rfl
  · simpa [hkicked, List.filterMap_cons, kickReason] using h.kicks
  · simpa [List.filterMap_cons, kickReason] using h.once
  · exact h.run.append (.cons trivial rfl (.refl _))
  · rw [hkicked]
    exact h.unkicked

/-- A kick of a live player tells its connection, for the first time. -/
theorem firstKick (h : Told env start seen told s) (reason : UTF16String)
    (hl : s.live = true) :
    Told env start (seen ++ [.kick reason]) (told ++ [.kickPlayer reason])
      { s with
        live := false
        connection := Connection.disconnectWith env reason s.connection } := by
  have hnone := h.unkicked hl
  have hkicks : told.filterMap kickReason = [] := by
    have := h.kicks
    rwa [hnone, List.prefix_nil] at this
  refine ⟨⟨?_, ?_, ?_, ?_, ?_⟩, ?_, nofun, nofun⟩
  · simpa [or_imp, forall_and, IsServed] using h.served
  · rw [List.filter_append, List.filterMap_append, h.completions]
    rfl
  · simpa [List.filterMap_cons, keepAliveTime, SessionEvent.tickTime] using h.ticks
  · simp [kickReason, SessionEvent.kicked, hnone, hkicks]
  · simp [kickReason, hkicks]
  · exact h.run.append (.cons trivial rfl (.refl _))

/-- What the session sees without telling its connection leaves the connection as it is. -/
theorem untold (h : Told env start seen told s) {f : SessionEvent} {live : Bool}
    (hf : f.completed = none) (hl : live = false) :
    Told env start (seen ++ [f]) told { s with live := live } where
  served := h.served
  completions := by simp [h.completions, hf]
  ticks := by
    rw [List.filterMap_append]
    exact h.ticks.trans (List.prefix_append _ _)
  kicks := by
    rw [List.filterMap_append]
    exact h.kicks.trans (List.prefix_append _ _)
  once := h.once
  run := h.run
  unkicked hlive := by cases hl.symm.trans hlive
  heard hlive := by cases hl.symm.trans hlive

end Told

/-- A session takes each step by telling its connection at most one event. -/
theorem told_of_run {start : Session κ} {seen : List SessionEvent} {s : Session κ}
    (run : GuardedRun (step env) Unguarded start seen s) :
    ∃ told, Told env start.connection seen told s := by
  refine run.invariant_history (I := fun seen s => ∃ told, Told env start.connection seen told s)
    ?_ ⟨[], ?_⟩
  · rintro seen s f t _ hstep ⟨told, h⟩
    cases f with
    | completion e =>
        simp only [step] at hstep
        split_ifs at hstep with he
        obtain ⟨c, hc, rfl⟩ := Option.map_eq_some_iff.mp hstep
        exact ⟨_, h.completion he hc⟩
    | tick now =>
        cases hstep
        unfold tick
        split_ifs with hlive hr
        · exact ⟨_, h.heardTick now hlive hr⟩
        · exact ⟨_, h.untold rfl rfl⟩
        · exact ⟨_, h.untold rfl (Bool.eq_false_iff.mpr hlive)⟩
    | kick reason =>
        cases hstep
        unfold kick
        split_ifs with hlive
        · exact ⟨_, h.firstKick reason hlive⟩
        · exact ⟨_, h.untold rfl (Bool.eq_false_iff.mpr hlive)⟩
  · refine ⟨⟨?_, rfl, ?_, ?_, ?_⟩, .refl _, fun _ => rfl, fun _ _ => rfl⟩ <;> simp

end Session

namespace VanillaMinecraftServer

variable {srv : VanillaMinecraftServer κ} {es : List ServerEvent} {i : PlayerId}
  {session : Session κ}

/-- In every run of the server that uses no deleted player, the connection of
each session is where a run of its own takes it: it was created and started, and
was told its completions in order, the ticks for as long as it was alive, and at
most one kick. -/
theorem sessions_follow_runs (run : GuardedRun (step env) (NoLateTouch env) {} es srv)
    (hs : srv.sessions[i]? = some session) :
    ∃ address created later told, acceptance i es = some (address, created, later) ∧
      GuardedRun (Connection.step env) Unguarded (Connection.create created)
        (.handleConnection {} :: told) session.connection ∧
      Follows (later.filterMap (ServerEvent.seen i address)) told ∧
      (session.live = true → session.connection.running = true →
        told.filterMap keepAliveTime =
          (later.filterMap (ServerEvent.seen i address)).filterMap SessionEvent.tickTime) := by
  obtain ⟨address, created, later, hacc, hrun⟩ := session_accepted run hs
  obtain ⟨told, h⟩ := Session.told_of_run hrun
  exact ⟨address, created, later, told, hacc, .cons trivial rfl h.run, h.toFollows, h.heard⟩

/-- A client pings, is silent, and is kicked. -/
theorem sessions_follow_runs_ping : ∃ (srv : VanillaMinecraftServer Byte) (session : Session Byte)
    (told : List ConnectionEvent),
    GuardedRun (step chainEnvironment) (NoLateTouch chainEnvironment) {}
        [.handleAccept 4096 0, .completion 0 (.readCompleted [0xFE, 1] chainAmbient), .tick 21,
          .requestKickPlayer (some 4096) [0x62]] srv ∧
      srv.sessions[0]? = some session ∧ session.live = false ∧
      GuardedRun (Connection.step chainEnvironment) Unguarded (Connection.create 0)
        (.handleConnection {} :: told) session.connection ∧
      told.filter (isCompletion ·) = [.readCompleted [0xFE, 1] chainAmbient] := by
  obtain ⟨srv, hrun, session, hs, hlive⟩ := exists_guardedRun (step chainEnvironment)
    (NoLateTouch chainEnvironment) {}
    [.handleAccept 4096 0, .completion 0 (.readCompleted [0xFE, 1] chainAmbient), .tick 21,
      .requestKickPlayer (some 4096) [0x62]]
    (fun srv => ∃ session ∈ srv.sessions[0]?, session.live = false) (by decide +kernel)
  obtain ⟨address, created, later, told, hacc, htold, hfollows, _⟩ :=
    sessions_follow_runs hrun hs
  cases hacc
  exact ⟨srv, session, told, hrun, hs, hlive, htold, hfollows.completions⟩

end VanillaMinecraftServer

end CarpetSrv.Server
