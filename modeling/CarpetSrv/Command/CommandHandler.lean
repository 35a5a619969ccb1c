import CarpetSrv.Server.VanillaMinecraftServer

/-!
# The console

The listener thread reads a line, copies the vector of players under the lock,
and carries out the command on the copy without the lock: `kickall` passes each
pointer of the copy to `requestKickPlayer`, and `list` asks each player of the
copy for its name.

## Implementation notes

Each use of one pointer of the copy is a step of its own, and the server may
take any steps in between. `named` and `kicked` are history. They list the
players asked for their names, each with whether the object was still live, and
the players that `kickall` took from the server, each with whether the copy
held it.
-/

namespace CarpetSrv.Command

open Foundation Network Server Utils

/-- Where the listener is in the command that it carries out. -/
inductive Listener
  | waiting
  | stopping
  | kicking (rest : List PlayerPtr)
  | listing (rest : List PlayerPtr) (playersList : CppString)
  deriving DecidableEq

structure CommandHandler (κ : Type) where
  server : VanillaMinecraftServer κ := {}
  running : Bool := true
  listener : Listener := .waiting
  playersSnapshot : List PlayerPtr := []
  messages : List CppString := []
  named : List (PlayerId × Bool) := []
  kicked : List (PlayerPtr × Bool) := []

variable {κ : Type}

/-- `player->getName()`. -/
def getName (srv : VanillaMinecraftServer κ) (i : PlayerId) : CppString :=
  ((srv.sessions[i]?.bind fun session => session.connection.player).map Player.name).getD []

/-- The object that the pointer was made for is not deleted. -/
def isLive (srv : VanillaMinecraftServer κ) (i : PlayerId) : Bool :=
  srv.sessions[i]?.any Session.live

namespace CommandHandler

def printMessage (message : CppString) (h : CommandHandler κ) : CommandHandler κ :=
  { h with messages := h.messages ++ [message] }

/-- The listener has read a line. It copies the players and begins the command. -/
def commandListener (command : CppString) (h : CommandHandler κ) : CommandHandler κ :=
  let copied := { h with playersSnapshot := h.server.players }
  if command = literal ("stop".toList) then
    { copied.printMessage (literal ("[Server] Stopping...".toList)) with
      running := false
      listener := .stopping }
  else if command = literal ("kickall".toList) then
    let printed := copied.printMessage (literal ("[Server] Kick from console!".toList))
    if copied.playersSnapshot.length = 0 then
      printed.printMessage
        (literal ("[Server] There is no online players to kick...".toList))
    else { printed with listener := .kicking copied.playersSnapshot }
  else if command = literal ("list".toList) then
    if copied.playersSnapshot.length = 0 then
      copied.printMessage (literal ("[Server] There is no online players. ".toList))
    else { copied with listener := .listing copied.playersSnapshot [] }
  else copied.printMessage (literal ("[Server] Unknown command: ".toList) ++ command)

/-- `kickall` passes one pointer of the copy to the server. -/
def kickNext (env : Environment κ) (player : PlayerPtr) (h : CommandHandler κ) :
    CommandHandler κ :=
  match player with
  | none => h
  | some _ =>
      let server := h.server.requestKickPlayer env (h.server.addressOf player)
        (createUTF16String (literal ("Kicked from the server by the console.".toList)))
      { h with
        server := server
        kicked := h.kicked ++ (h.server.players.filter fun p => p ∉ server.players).map
          fun p => (p, decide (p ∈ h.playersSnapshot)) }

/-- `list` adds the name of one player of the copy. -/
def nameNext (player : PlayerPtr) (rest : List PlayerPtr) (playersList : CppString)
    (h : CommandHandler κ) : CommandHandler κ :=
  let separator := if rest = [] then [] else literal [',', ' ']
  match player with
  | none => { h with listener := .listing rest (playersList ++ separator) }
  | some i =>
      { h with
        listener := .listing rest (playersList ++ getName h.server i ++ separator)
        named := h.named ++ [(i, isLive h.server i)] }

/-- The listener takes the next step of its command. -/
def proceed (env : Environment κ) (h : CommandHandler κ) : Option (CommandHandler κ) :=
  match h.listener with
  | .waiting => none
  | .stopping => some { h with server := h.server.shutdown env, listener := .waiting }
  | .kicking (player :: rest) => some (kickNext env player { h with listener := .kicking rest })
  | .kicking [] => some
      { h.printMessage (literal ("Kicked ".toList) ++ toString h.playersSnapshot.length ++
          literal (" players from the server.".toList)) with listener := .waiting }
  | .listing (player :: rest) playersList => some (nameNext player rest playersList h)
  | .listing [] playersList => some
      { h.printMessage (literal ("There are ".toList) ++ toString h.playersSnapshot.length ++
          literal (" players online: ".toList) ++ playersList) with listener := .waiting }

end CommandHandler

/-! ## Steps -/

inductive CommandEvent
  | commandListener (command : CppString)
  | proceed
  | server (e : ServerEvent)

namespace CommandHandler

def step (env : Environment κ) (h : CommandHandler κ) :
    CommandEvent → Option (CommandHandler κ)
  | .commandListener command =>
      if h.running = true ∧ h.listener = .waiting then some (h.commandListener command) else none
  | .proceed => h.proceed env
  | .server e => (h.server.step env e).map fun srv => { h with server := srv }

end CommandHandler

end CarpetSrv.Command
