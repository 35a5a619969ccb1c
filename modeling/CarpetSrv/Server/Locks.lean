import CarpetSrv.Foundation.LockOrder

/-!
# The locks of the threads

Three threads share the mutexes of the server, of its connections and of the
console: the network thread runs the completions, the main thread the ticks,
and the listener thread the commands. The players are locked before everything
that a kick or a `tick` locks under them, and no other guard has a guard inside.

A signal handler runs `shutdown` on the thread that it interrupts. The mutexes
that this thread holds are not released before the handler returns, and the
handler ends with `_Exit`.

## Implementation notes

Each method is the program of the guards that it takes. What decides between
its branches is left out, and what may throw may end it: behind a call that can
throw, the rest of a method is optional. `stateMutex` is locked nowhere. A
destructor of a connection runs where its last reference is dropped: behind a
deletion of its player, behind its last completion, or at the end of
`startServer`, where the `io_context` goes out of scope with the completions
that are still pending, among them always an accept. The main thread holds no
mutex where it sleeps and where it joins the network thread.
-/

namespace CarpetSrv.Server.Locks

open Foundation Foundation.LockProgram

/-- The mutexes of the process. Each connection has two. -/
inductive Mutex
  | inputMutex
  | consoleMutex
  | playersMutex
  | serverStateMutex
  | queueMutex (connection : Nat)
  | cipherMutex (connection : Nat)
  deriving DecidableEq

/-- The order in which the guards nest. -/
def Mutex.rank : Mutex → Nat
  | inputMutex | playersMutex => 0
  | serverStateMutex => 1
  | consoleMutex | queueMutex _ | cipherMutex _ => 2

@[simp] theorem rank_playersMutex : Mutex.rank .playersMutex = 0 := rfl

@[simp] theorem rank_queueMutex (i : Nat) : Mutex.rank (.queueMutex i) = 2 := rfl

@[simp] theorem rank_cipherMutex (i : Nat) : Mutex.rank (.cipherMutex i) = 2 := rfl

/-- A part that a condition may skip. -/
def optional (p : LockProgram Mutex) : LockProgram Mutex := .either .skip p

/-- A call that may throw, and what follows it when it does not. -/
def thenUnlessThrown (p rest : LockProgram Mutex) : LockProgram Mutex := .seq p (optional rest)

/-! ## The console -/

/-- `printMessage` and `printerr`. -/
def printMessage : LockProgram Mutex := .guarded .consoleMutex .skip

def getLine : LockProgram Mutex := .guarded .inputMutex .skip

/-- `readString` reports a length that it does not accept. -/
def readString : LockProgram Mutex := optional printMessage

/-! ## A connection -/

section Connection

variable (i : Nat)

def startWrite : LockProgram Mutex :=
  optional (thenUnlessThrown (.guarded (.queueMutex i) .skip)
    (optional (.guarded (.cipherMutex i) .skip)))

def addPacketToQueue : LockProgram Mutex :=
  .seq (.guarded (.queueMutex i) .skip) (optional (startWrite i))

/-- `disconnect(reason)`. -/
def disconnectWith : LockProgram Mutex := thenUnlessThrown (addPacketToQueue i) printMessage

/-- `disconnect()`. -/
def disconnect : LockProgram Mutex := printMessage

def sendKeepAlive : LockProgram Mutex := optional (.either (disconnectWith i) disconnect)

/-- `~Connection`. -/
def destroy : LockProgram Mutex := .guarded (.cipherMutex i) .skip

def handleServerPingPacket : LockProgram Mutex := optional (addPacketToQueue i)

/-- The packet has two strings. -/
def handleHandshake : LockProgram Mutex :=
  optional (thenUnlessThrown readString (thenUnlessThrown readString
    (thenUnlessThrown (optional (thenUnlessThrown (disconnectWith i) printMessage))
      (thenUnlessThrown (optional printMessage) (addPacketToQueue i)))))

def handleSharedKeyPacket : LockProgram Mutex :=
  optional (.seq (optional (.seq disconnect printMessage))
    (thenUnlessThrown (.guarded (.cipherMutex i) .skip)
      (thenUnlessThrown (addPacketToQueue i)
        (thenUnlessThrown (addPacketToQueue i) (addPacketToQueue i)))))

def handleClientInfo : LockProgram Mutex := readString

def handleKeepAlive : LockProgram Mutex := printMessage

def handlePositionPacket : LockProgram Mutex := .skip

/-- The loop of `process_packets`. The last branch is the unknown packet id. -/
def processPackets : LockProgram Mutex :=
  .many (.either (handleServerPingPacket i) (.either (handleHandshake i)
    (.either (handleSharedKeyPacket i) (.either handleClientInfo (.either handleKeepAlive
      (.either handlePositionPacket printMessage))))))

def handleRead : LockProgram Mutex :=
  optional (thenUnlessThrown (optional (.guarded (.cipherMutex i) .skip)) (processPackets i))

def handleWrite : LockProgram Mutex := optional disconnect

end Connection

/-! ## The server -/

/-- Kick a player and delete it. -/
def kickAndDelete (i : Nat) : LockProgram Mutex :=
  thenUnlessThrown (disconnectWith i) (optional (destroy i))

def shutdown : LockProgram Mutex :=
  .guarded .playersMutex (.guarded .serverStateMutex (.many (.any kickAndDelete)))

def requestKickPlayer : LockProgram Mutex :=
  .guarded .playersMutex (optional (.any kickAndDelete))

def tick : LockProgram Mutex :=
  .guarded .playersMutex (.many (.any fun i =>
    .either (.seq printMessage (optional (destroy i))) (sendKeepAlive i)))

def handleAccept : LockProgram Mutex :=
  optional (.seq printMessage (.guarded .playersMutex .skip))

/-! ## The threads -/

/-- A completion that `io_context::run` calls. -/
def completion : LockProgram Mutex :=
  .any fun i => .seq (.either (handleRead i) (.either handleWrite handleAccept))
    (optional (destroy i))

def networkThread : LockProgram Mutex := .many completion

/-- `cleanup`, which runs when the process exits and in the signal handler. -/
def cleanup : LockProgram Mutex := optional shutdown

/-- The loop of `startServer`, the end of its `io_context`, and the exit behind it. -/
def mainThread : LockProgram Mutex :=
  .seq (.many printMessage) (.seq (.many tick) (.seq (.many (.any destroy)) cleanup))

/-- One command of the listener: `stop`, `kickall`, `list` or an unknown one. -/
def commandListener : LockProgram Mutex :=
  .seq getLine (.seq (.guarded .playersMutex .skip)
    (.either (.seq printMessage shutdown)
      (.either (.seq printMessage (.either printMessage
        (thenUnlessThrown (.many requestKickPlayer) printMessage)))
        (.either printMessage printMessage))))

def commandThread : LockProgram Mutex := .many commandListener

/-- The threads before they start. -/
def threads (network main command : List (LockOp Mutex)) : List (LockThread Mutex) :=
  [⟨[], network⟩, ⟨[], main⟩, ⟨[], command⟩]

/-! ## The guards nest upwards -/

@[simp] theorem nests_optional {n : Nat} {p : LockProgram Mutex} :
    Nests Mutex.rank n (optional p) ↔ Nests Mutex.rank n p := by
  simp [optional]

@[simp] theorem nests_thenUnlessThrown {n : Nat} {p rest : LockProgram Mutex} :
    Nests Mutex.rank n (thenUnlessThrown p rest) ↔
      Nests Mutex.rank n p ∧ Nests Mutex.rank n rest := by
  simp [thenUnlessThrown]

section Nests

variable {n : Nat} (i : Nat)

theorem printMessage_nests (h : n ≤ 2) : Nests Mutex.rank n printMessage := ⟨h, trivial⟩

theorem addPacketToQueue_nests (h : n ≤ 2) : Nests Mutex.rank n (addPacketToQueue i) := by
  simp [addPacketToQueue, startWrite, h]

theorem disconnectWith_nests (h : n ≤ 2) : Nests Mutex.rank n (disconnectWith i) := by
  simp [disconnectWith, addPacketToQueue_nests i h, printMessage_nests h]

theorem kickAndDelete_nests (h : n ≤ 2) : Nests Mutex.rank n (kickAndDelete i) := by
  simp [kickAndDelete, disconnectWith_nests i h, destroy, h]

theorem processPackets_nests (h : n ≤ 2) : Nests Mutex.rank n (processPackets i) := by
  simp [processPackets, handleServerPingPacket, handleHandshake, handleSharedKeyPacket,
    handleClientInfo, handleKeepAlive, handlePositionPacket, readString, disconnect,
    addPacketToQueue_nests i h, disconnectWith_nests i h, printMessage_nests h, h]

theorem shutdown_nests : Nests Mutex.rank 0 shutdown :=
  ⟨Nat.le_refl _, Nat.le_refl _, fun i => kickAndDelete_nests i (Nat.le_refl _)⟩

theorem requestKickPlayer_nests : Nests Mutex.rank 0 requestKickPlayer := by
  refine ⟨Nat.le_refl _, nests_optional.mpr fun i => kickAndDelete_nests i ?_⟩
  decide

theorem tick_nests : Nests Mutex.rank 0 tick := by
  refine ⟨Nat.le_refl _, fun i => ⟨⟨?_, ?_⟩, ?_⟩⟩
  · exact printMessage_nests (by decide)
  · simp [destroy]
  · have hkick := disconnectWith_nests i (n := 1) (by decide)
    simp [sendKeepAlive, disconnect, hkick, printMessage_nests]

theorem networkThread_nests : Nests Mutex.rank 0 networkThread := by
  intro i
  have hread := processPackets_nests i (Nat.zero_le 2)
  have hprint := printMessage_nests (Nat.zero_le 2)
  simp [handleRead, handleWrite, handleAccept, disconnect, destroy, hread, hprint]

theorem mainThread_nests : Nests Mutex.rank 0 mainThread := by
  refine ⟨printMessage_nests (Nat.zero_le 2), tick_nests, fun i => ?_,
    nests_optional.mpr shutdown_nests⟩
  simp [destroy]

theorem commandThread_nests : Nests Mutex.rank 0 commandThread := by
  have hprint := printMessage_nests (Nat.zero_le 2)
  simp [commandThread, commandListener, getLine, hprint, shutdown_nests, requestKickPlayer_nests]

end Nests

/-! ## No deadlock -/

variable {network main command : List (LockOp Mutex)} {es fs : List Nat}
  {ts ts' : List (LockThread Mutex)}

theorem threads_allOrdered (hn : Trace networkThread network) (hm : Trace mainThread main)
    (hc : Trace commandThread command) :
    LockThread.AllOrdered Mutex.rank (threads network main command) := by
  intro t ht
  simp only [threads, List.mem_cons, List.not_mem_nil, or_false] at ht
  rcases ht with rfl | rfl | rfl
  · exact hn.ordered networkThread_nests
  · exact hm.ordered mainThread_nests
  · exact hc.ordered commandThread_nests

/-- However the three threads are scheduled, whatever they execute and for as
long as they do: no state is a deadlock, each step brings the end nearer, and
every run can be continued to the end, where no mutex is held. -/
theorem threads_complete (hn : Trace networkThread network) (hm : Trace mainThread main)
    (hc : Trace commandThread command)
    (run : GuardedRun LockThread.step Unguarded (threads network main command) es ts) :
    ((∀ i, LockThread.step ts i = none) → LockThread.Finished ts) ∧
      es.length + LockThread.remaining ts = network.length + main.length + command.length ∧
      ∃ fs ts', GuardedRun LockThread.step Unguarded ts fs ts' ∧ LockThread.Finished ts' := by
  have hord := (threads_allOrdered hn hm hc).of_run run
  refine ⟨LockThread.finished_of_stuck hord, ?_, hord.completes⟩
  rw [LockThread.length_of_run run]
  simp [LockThread.remaining, threads, Nat.add_assoc]

/-- A client is accepted. -/
def acceptOps : List (LockOp Mutex) :=
  [.lock .consoleMutex, .unlock .consoleMutex, .lock .playersMutex, .unlock .playersMutex]

/-- A `tick` times out the player of connection 0. At the end, the connection of
the pending accept is destroyed. -/
def timeoutOps : List (LockOp Mutex) :=
  [.lock .playersMutex, .lock (.queueMutex 0), .unlock (.queueMutex 0), .lock (.queueMutex 0),
    .unlock (.queueMutex 0), .lock .consoleMutex, .unlock .consoleMutex, .unlock .playersMutex,
    .lock (.cipherMutex 1), .unlock (.cipherMutex 1)]

/-- The listener reads an unknown command. -/
def unknownOps : List (LockOp Mutex) :=
  [.lock .inputMutex, .unlock .inputMutex, .lock .playersMutex, .unlock .playersMutex,
    .lock .consoleMutex, .unlock .consoleMutex]

theorem trace_acceptOps : Trace networkThread acceptOps := by
  have haccept : Trace handleAccept _ := .right (.seq (.guarded .skip) (.guarded .skip))
  have hcompletion : Trace completion _ :=
    .any 0 (.seq (.right (.right haccept)) (.left .skip))
  exact .again hcompletion .stop

theorem trace_timeoutOps : Trace mainThread timeoutOps := by
  have hpacket : Trace (addPacketToQueue 0) _ := .seq (.guarded .skip) (.right (.right (.seq
    (.guarded .skip) (.left .skip))))
  have hkick : Trace (disconnectWith 0) _ := .seq hpacket (.right (.guarded .skip))
  have htick : Trace tick _ := .guarded (.again (.any 0 (.right (.right (.left hkick)))) .stop)
  have hexit : Trace (.many (.any destroy)) _ := .again (.any 1 (.guarded .skip)) .stop
  exact .seq .stop (.seq (.again htick .stop) (.seq hexit (.left .skip)))

theorem trace_unknownOps : Trace commandThread unknownOps := by
  have hcommand : Trace commandListener _ := .seq (.guarded .skip) (.seq (.guarded .skip)
    (.right (.right (.right (.guarded .skip)))))
  exact .again hcommand .stop

/-- The accept and the command wait for the `tick` to let go of the players. -/
theorem threads_complete_tick : ∃ ts,
    GuardedRun LockThread.step Unguarded (threads acceptOps timeoutOps unknownOps)
        [1, 0, 2, 0, 2, 1] ts ∧
      LockThread.step ts 0 = none ∧ LockThread.step ts 2 = none ∧
      ∃ fs ts', GuardedRun LockThread.step Unguarded ts fs ts' ∧ LockThread.Finished ts' := by
  obtain ⟨ts, hrun, hwait⟩ := exists_guardedRun LockThread.step Unguarded
    (threads acceptOps timeoutOps unknownOps) [1, 0, 2, 0, 2, 1]
    (fun ts => LockThread.step ts 0 = none ∧ LockThread.step ts 2 = none) (by decide)
  obtain ⟨_, _, hdone⟩ :=
    threads_complete trace_acceptOps trace_timeoutOps trace_unknownOps hrun
  exact ⟨ts, hrun, hwait.1, hwait.2, hdone⟩

/-! ## Signals -/

theorem exclusive_threads (network main command : List (LockOp Mutex)) :
    LockThread.Exclusive (threads network main command) := by
  intro i j t u l ht _ hl _
  have hmem := List.mem_of_getElem? ht
  simp only [threads, List.mem_cons, List.not_mem_nil, or_false] at hmem
  rcases hmem with rfl | rfl | rfl <;> cases hl

/-- The signal handler takes the mutex of the players. -/
theorem lock_players_of_shutdown {ops : List (LockOp Mutex)} (h : Trace shutdown ops) :
    .lock .playersMutex ∈ ops := by
  cases h
  exact List.mem_append_left _ List.mem_cons_self

/-- The signal handler runs on thread `i` in place of what the thread was doing. -/
def interrupt (i : Nat) (handler : List (LockOp Mutex)) (ts : List (LockThread Mutex)) :
    List (LockThread Mutex) :=
  ts.modify i fun t => { t with todo := handler }

theorem interrupt_eq_set {i : Nat} {t : LockThread Mutex} (ht : ts[i]? = some t)
    (handler : List (LockOp Mutex)) : interrupt i handler ts = ts.set i ⟨t.held, handler⟩ := by
  obtain ⟨hi, rfl⟩ := List.getElem?_eq_some_iff.mp ht
  rw [interrupt, List.modify_eq_take_cons_drop hi, List.set_eq_take_cons_drop _ hi]

/-- Where a signal interrupts a thread that holds no mutex, its handler and the
other threads can always finish. Where the thread holds a mutex that the
handler takes, as it takes that of the players, the handler never finishes and
no other thread ever gets the mutex. -/
theorem signal_handler {i : Nat} {t : LockThread Mutex} {handler : List (LockOp Mutex)}
    (hn : Trace networkThread network) (hm : Trace mainThread main)
    (hc : Trace commandThread command)
    (run : GuardedRun LockThread.step Unguarded (threads network main command) es ts)
    (ht : ts[i]? = some t) (hs : Trace shutdown handler)
    (later : GuardedRun LockThread.step Unguarded (interrupt i handler ts) fs ts') :
    (t.held = [] → ∃ gs us, GuardedRun LockThread.step Unguarded ts' gs us ∧
      LockThread.Finished us) ∧
    .lock .playersMutex ∈ handler ∧
    ∀ l ∈ t.held, .lock l ∈ handler →
      (∃ t', ts'[i]? = some t' ∧ t'.todo ≠ []) ∧
        ∀ j u, ts'[j]? = some u → l ∈ u.held → j = i := by
  have hord := (threads_allOrdered hn hm hc).of_run run
  have hexcl := (exclusive_threads network main command).of_run run
  have hhandler := hs.ordered shutdown_nests
  have hi := (List.getElem?_eq_some_iff.mp ht).1
  rw [interrupt_eq_set ht] at later
  refine ⟨fun hfree => ?_, lock_players_of_shutdown hs, fun l hl hlock => ?_⟩
  · have hset : LockThread.AllOrdered Mutex.rank (ts.set i ⟨t.held, handler⟩) := by
      apply hord.set
      rw [hfree]
      exact hhandler
    exact (hset.of_run later).completes
  · have hthread : (ts.set i ⟨t.held, handler⟩)[i]? = some ⟨t.held, handler⟩ :=
      List.getElem?_set_self hi
    obtain ⟨t', ht', hheld, hmem⟩ :=
      LockThread.stays_blocked hl hthread ⟨[], rfl, hhandler⟩ hlock later
    have hset : LockThread.Exclusive (ts.set i ⟨t.held, handler⟩) := hexcl.set ht (by rfl)
    refine ⟨⟨t', ht', List.ne_nil_of_mem hmem⟩, fun j u hu hlu => ?_⟩
    exact (hset.of_run later) j i u t' l hu ht' hlu hheld

/-- `shutdown` without players. -/
def shutdownOps : List (LockOp Mutex) :=
  [.lock .playersMutex, .lock .serverStateMutex, .unlock .serverStateMutex, .unlock .playersMutex]

theorem trace_shutdownOps : Trace shutdown shutdownOps := .guarded (.guarded .stop)

/-- A client is being accepted while a `tick` has begun. -/
def inTick : List (LockThread Mutex) :=
  [⟨[.consoleMutex], acceptOps.tail⟩, ⟨[.playersMutex], timeoutOps.tail⟩, ⟨[], unknownOps⟩]

/-- A signal interrupts the main thread in a `tick`. -/
theorem signal_handler_tick :
    GuardedRun LockThread.step Unguarded (threads acceptOps timeoutOps unknownOps) [1, 0] inTick ∧
      ∃ ts, GuardedRun LockThread.step Unguarded (interrupt 1 shutdownOps inTick) [0, 2] ts ∧
        ∃ t, ts[1]? = some t ∧ t.todo ≠ [] := by
  have hrun : GuardedRun LockThread.step Unguarded (threads acceptOps timeoutOps unknownOps)
      [1, 0] inTick := runGuarded_eq_some_iff.mp (by decide)
  obtain ⟨ts, later, _⟩ := exists_guardedRun LockThread.step Unguarded
    (interrupt 1 shutdownOps inTick) [0, 2] (fun ts => ts.length = 3) (by decide)
  obtain ⟨_, hlock, hblocked⟩ := signal_handler trace_acceptOps trace_timeoutOps
    trace_unknownOps hrun rfl trace_shutdownOps later
  exact ⟨hrun, ts, later, (hblocked _ List.mem_cons_self hlock).1⟩

end CarpetSrv.Server.Locks
