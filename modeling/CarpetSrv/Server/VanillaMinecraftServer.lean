import CarpetSrv.Network.ConnectionFrame
import CarpetSrv.Network.ConnectionRun

/-!
# The server and its players

The server keeps a vector of raw pointers to its players. Every accepted
connection comes with one player object, which the connection refers to by a
raw pointer as well. The server deletes a player when it kicks it, when it
shuts down, and in the tick that finds its connection no longer alive. The
connection outlives it, since the pending operations of asio keep it.

## Implementation notes

An accepted player and its connection form a session, and the position in the
list of sessions tells which player object a pointer was made for. What a
pointer compares by is the address of that object, which a later player may
be given again once the object is deleted. `uses` is history: it lists which
player a connection dereferenced, and whether the object was still live.

The steps are atomic, as the mutex over the players makes those of the server.
`keypair` is in the environment, `usedIDs` and `maxPlayers` are used nowhere.
-/

namespace CarpetSrv.Server

open Network Utils

/-- Which `new Player` an object came from. -/
abbrev PlayerId := Nat

abbrev Address := Nat

/-- The type `Player *`. -/
abbrev PlayerPtr := Option PlayerId

variable {κ : Type}

/-- A player object and the connection it was created for. -/
structure Session (κ : Type) where
  address : Address
  live : Bool := true
  connection : Connection κ

structure VanillaMinecraftServer (κ : Type) where
  running : Bool := true
  ioStopped : Bool := false
  players : List PlayerPtr := []
  sessions : List (Session κ) := []
  uses : List (PlayerId × Bool) := []

namespace VanillaMinecraftServer

/-- A dereference of the player pointer. -/
def playerUse : Effect → Option Unit
  | .playerUsed => some ()
  | _ => none

/-- How often the connection has dereferenced its player pointer. -/
def useCount (c : Connection κ) : Nat := (Connection.observe playerUse c).length

/-- Put a connection into its next state and record its uses of the player. -/
def setConnection (i : PlayerId) (session : Session κ) (c : Connection κ)
    (srv : VanillaMinecraftServer κ) : VanillaMinecraftServer κ :=
  { srv with
    sessions := srv.sessions.set i { session with connection := c }
    uses := srv.uses ++
      List.replicate (useCount c - useCount session.connection) (i, session.live) }

/-- Call a method of the connection of a player. -/
def onConnection (i : PlayerId) (f : Connection κ → Connection κ)
    (srv : VanillaMinecraftServer κ) : VanillaMinecraftServer κ :=
  match srv.sessions[i]? with
  | some session => srv.setConnection i session (f session.connection)
  | none => srv

/-- `delete player`. -/
def deletePlayer (i : PlayerId) (srv : VanillaMinecraftServer κ) : VanillaMinecraftServer κ :=
  { srv with sessions := srv.sessions.modify i fun session => { session with live := false } }

/-- The address that a pointer holds. -/
def addressOf (srv : VanillaMinecraftServer κ) (player : PlayerPtr) : Option Address :=
  player.bind fun i => srv.sessions[i]?.map Session.address

/-- `player->getConnection().isAlive()`. -/
def isAlive (srv : VanillaMinecraftServer κ) (i : PlayerId) : Bool :=
  srv.sessions[i]?.any fun session => session.connection.running

/-- Kick a player and delete it, unless the pointer is null. -/
def kickAndDelete (env : Environment κ) (reason : UTF16String) (player : PlayerPtr)
    (srv : VanillaMinecraftServer κ) : VanillaMinecraftServer κ :=
  match player with
  | some i => (srv.onConnection i (Connection.disconnectWith env reason)).deletePlayer i
  | none => srv

/-- `shutdown`. It also stops the context that runs the completions. -/
def shutdown (env : Environment κ) (srv : VanillaMinecraftServer κ) : VanillaMinecraftServer κ :=
  let kicked := srv.players.foldl (fun srv player => srv.kickAndDelete env
    (createUTF16String (literal ("Server is restarting...".toList))) player) srv
  { kicked with players := [], running := false, ioStopped := true }

/-- The loop of `requestKickPlayer`. The players before the index are `passed`. -/
def requestKickLoop (env : Environment κ) (player : Option Address) (reason : UTF16String)
    (srv : VanillaMinecraftServer κ) (passed : List PlayerPtr) :
    List PlayerPtr → VanillaMinecraftServer κ
  | [] => srv
  | p :: ps =>
      if srv.addressOf p = player then
        { srv.kickAndDelete env reason p with players := passed ++ ps }
      else requestKickLoop env player reason srv (passed ++ [p]) ps

def requestKickPlayer (env : Environment κ) (player : Option Address) (reason : UTF16String)
    (srv : VanillaMinecraftServer κ) : VanillaMinecraftServer κ :=
  requestKickLoop env player reason srv [] srv.players

/-- The loop of `tick`. The players before the index are `passed`. -/
def tickLoop (env : Environment κ) (now : Int) (srv : VanillaMinecraftServer κ)
    (passed : List PlayerPtr) : List PlayerPtr → VanillaMinecraftServer κ
  | [] => { srv with players := passed }
  | none :: ps => tickLoop env now srv passed ps
  | some i :: ps =>
      if srv.isAlive i then
        tickLoop env now (srv.onConnection i (Connection.sendKeepAlive env now))
          (passed ++ [some i]) ps
      else tickLoop env now (srv.deletePlayer i) passed ps

def tick (env : Environment κ) (now : Int) (srv : VanillaMinecraftServer κ) :
    VanillaMinecraftServer κ :=
  tickLoop env now srv [] srv.players

/-- `handle_accept` without an error, for a connection created at `created`.
The new player is allocated at `address`. -/
def handleAccept (address : Address) (created : Int) (srv : VanillaMinecraftServer κ) :
    VanillaMinecraftServer κ :=
  { srv with
    players := srv.players ++ [some srv.sessions.length]
    sessions := srv.sessions ++
      [{ address, connection := Connection.handleConnection {} (Connection.create created) }] }

end VanillaMinecraftServer

/-! ## Steps -/

/-- The event is a completion that asio delivers. -/
def isCompletion : ConnectionEvent → Bool
  | .readCompleted .. | .readFailed | .writeCompleted | .writeFailed _ => true
  | _ => false

/-- What can happen to the server. -/
inductive ServerEvent
  | handleAccept (address : Address) (created : Int)
  | acceptFailed
  | completion (i : PlayerId) (e : ConnectionEvent)
  | tick (now : Int)
  | requestKickPlayer (player : Option Address) (reason : UTF16String)
  | shutdown

namespace VanillaMinecraftServer

/-- One event. Completions and accepts need the context to run, and the
allocator gives out no address of a live player. -/
def step (env : Environment κ) (srv : VanillaMinecraftServer κ) :
    ServerEvent → Option (VanillaMinecraftServer κ)
  | .handleAccept address created =>
      if srv.ioStopped = false ∧
          ∀ session ∈ srv.sessions, session.live = true → session.address ≠ address then
        some (srv.handleAccept address created)
      else none
  | .acceptFailed => if srv.ioStopped = false then some srv else none
  | .completion i e =>
      if srv.ioStopped = false ∧ isCompletion e = true then
        match srv.sessions[i]? with
        | some session =>
            (Connection.step env session.connection e).map fun c => srv.setConnection i session c
        | none => none
      else none
  | .tick now => some (srv.tick env now)
  | .requestKickPlayer player reason => some (srv.requestKickPlayer env player reason)
  | .shutdown => some (srv.shutdown env)

/-- Every way in which an event can take place. -/
inductive Steps (env : Environment κ) (srv : VanillaMinecraftServer κ) :
    ServerEvent → VanillaMinecraftServer κ → Prop
  | handleAccept {address : Address} {created : Int} (ho : srv.ioStopped = false)
      (ha : ∀ session ∈ srv.sessions, session.live = true → session.address ≠ address) :
      Steps env srv (.handleAccept address created) (srv.handleAccept address created)
  | acceptFailed (ho : srv.ioStopped = false) : Steps env srv .acceptFailed srv
  | completion {i : PlayerId} {e : ConnectionEvent} {session : Session κ} {c : Connection κ}
      (ho : srv.ioStopped = false) (he : isCompletion e = true)
      (hs : srv.sessions[i]? = some session)
      (hc : Connection.step env session.connection e = some c) :
      Steps env srv (.completion i e) (srv.setConnection i session c)
  | tick {now : Int} : Steps env srv (.tick now) (srv.tick env now)
  | requestKickPlayer {player : Option Address} {reason : UTF16String} :
      Steps env srv (.requestKickPlayer player reason) (srv.requestKickPlayer env player reason)
  | shutdown : Steps env srv .shutdown (srv.shutdown env)

theorem step_cases {env : Environment κ} {srv srv' : VanillaMinecraftServer κ} {e : ServerEvent}
    (h : step env srv e = some srv') : Steps env srv e srv' := by
  cases e with
  | handleAccept address created =>
      simp only [step] at h
      split_ifs at h with hc
      cases h
      exact .handleAccept hc.1 hc.2
  | acceptFailed =>
      simp only [step] at h
      split_ifs at h with hc
      cases h
      exact .acceptFailed hc
  | completion i e =>
      simp only [step] at h
      split_ifs at h with hc
      split at h
      case h_1 session hs =>
        obtain ⟨c, hstep, hset⟩ := Option.map_eq_some_iff.mp h
        rw [← hset]
        exact .completion hc.1 hc.2 hs hstep
      case h_2 => cases h
  | tick now =>
      cases h
      exact .tick
  | requestKickPlayer player reason =>
      cases h
      exact .requestKickPlayer
  | shutdown =>
      cases h
      exact .shutdown

end VanillaMinecraftServer

end CarpetSrv.Server
