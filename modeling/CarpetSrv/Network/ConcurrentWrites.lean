import CarpetSrv.Network.ConnectionRun
import CarpetSrv.Network.ConnectionFrame
import Mathlib.Logic.Function.Iterate

/-!
# Calls of `addPacketToQueue` from several threads

The network callbacks, the tick and the console all queue packets. A call
pushes its packet, tests `isWriting` twice, stores `true` in it, drains the
queue into the write buffer, and posts the buffer. Only the push and the drain
are locked, so the calls of different threads may interleave between any two of
these steps.

## Implementation notes

`inFlight` lists all writes that asio has not completed, and
`socket.pendingWrite` holds the last one posted. Everything else that happens
to the connection is one event that leaves the queue, the flag and the write
buffer alone, since only these calls and the completion touch them.
-/

namespace CarpetSrv.Network

open Foundation Packet Utils Connection

variable {κ : Type}

/-- What a call of `addPacketToQueue` does next. -/
inductive Stage
  | push (packet : Packet)
  | test
  /-- The test at the head of `start_write`. -/
  | testAgain
  | store
  | drain
  | post (batch : List Packet)
  | returned
  deriving DecidableEq

namespace Stage

/-- One step of a call. -/
def next (env : Environment κ) : Stage × Connection κ → Stage × Connection κ
  | (push packet, s) => (test, pushPacket packet s)
  | (test, s) => (if s.isWriting then returned else testAgain, s)
  | (testAgain, s) => (if s.isWriting then returned else store, s)
  | (store, s) => (drain, { s with isWriting := true })
  | (drain, s) => (post s.queue, { s with
      queue := []
      writeBuffer := s.queue.foldl (fun b p => p.writeData env.keypair b) s.writeBuffer })
  | (post batch, s) => (returned, postWrite batch (encryptWriteBuffer env s))
  | (returned, s) => (returned, s)

theorem next_test_of_idle (env : Environment κ) {s : Connection κ} (h : s.isWriting = false) :
    next env (test, s) = (testAgain, s) ∧ next env (testAgain, s) = (store, s) := by
  simp [next, h]

/-- The steps of a call without others in between are `addPacketToQueue`. -/
theorem next_alone (env : Environment κ) (packet : Packet) (s : Connection κ) :
    (next env)^[6] (push packet, s) = (returned, addPacketToQueue env packet s) := by
  have hpush : next env (push packet, s) = (test, pushPacket packet s) := rfl
  have hw : (pushPacket packet s).isWriting = s.isWriting := rfl
  cases h : s.isWriting with
  | true =>
      rw [addPacketToQueue_of_busy env h]
      simp [next, hw, h]
  | false =>
      obtain ⟨htest, hagain⟩ := next_test_of_idle env (hw.trans h)
      rw [addPacketToQueue_eq, startWrite_of_idle env (hw.trans h)]
      simp only [Function.iterate_succ_apply, Function.iterate_zero_apply]
      rw [hpush, htest, hagain]
      rfl

/-- The write that this step posts. -/
def posted (env : Environment κ) (s : Connection κ) : Stage → List PendingWrite
  | post batch => [⟨batch, (encryptWriteBuffer env s).writeBuffer.constBuffer⟩]
  | _ => []

/-- The call has stored `true` and not yet posted its write. -/
def InStartWrite : Stage → Prop
  | drain | post _ => True
  | _ => False

instance : DecidablePred InStartWrite
  | drain | post _ => .isTrue trivial
  | push _ | test | testAgain | store | returned => .isFalse id

end Stage

/-- A connection, the calls of `addPacketToQueue`, and the writes not completed. -/
structure Callers (κ : Type) where
  connection : Connection κ
  calls : List Stage := []
  inFlight : List PendingWrite := []

inductive CallersEvent (κ : Type)
  /-- A thread calls `addPacketToQueue`. -/
  | call (packet : Packet)
  /-- The call takes its next step. -/
  | advance (k : Nat)
  | writeCompleted (k : Nat)
  | writeFailed (k size : Nat)
  /-- Other code brings the connection into this state. -/
  | elsewhere (s : Connection κ)

namespace Callers

/-- One event. -/
def step (env : Environment κ) (c : Callers κ) : CallersEvent κ → Option (Callers κ)
  | .call packet => some { c with calls := c.calls ++ [.push packet] }
  | .advance k =>
      c.calls[k]?.map fun stage =>
        { connection := (Stage.next env (stage, c.connection)).2
          calls := c.calls.set k (Stage.next env (stage, c.connection)).1
          inFlight := c.inFlight ++ stage.posted env c.connection }
  | .writeCompleted k =>
      c.inFlight[k]?.map fun w =>
        { c with
          connection := handleWrite false w.bytes.length (completeWrite w c.connection)
          inFlight := c.inFlight.eraseIdx k }
  | .writeFailed k size =>
      c.inFlight[k]?.map fun _ =>
        { c with
          connection := handleWrite true size
            { c.connection with socket := { c.connection.socket with pendingWrite := none } }
          inFlight := c.inFlight.eraseIdx k }
  | .elsewhere s =>
      if s.queue = c.connection.queue ∧ s.isWriting = c.connection.isWriting ∧
          s.writeBuffer = c.connection.writeBuffer then
        some { c with connection := s }
      else none

/-! ## One write in flight -/

variable {env : Environment κ} {c c' : Callers κ} {k : Nat}

/-- No call stores `true` over a `true`: between its last test and its store no
other call has stored. -/
def StoresOverFalse (c : Callers κ) : CallersEvent κ → Prop
  | .advance k => c.calls[k]? = some .store → c.connection.isWriting = false
  | _ => True

/-- The flag counts the call that is in `start_write` or the write it has
posted, and that write finds its bytes in the write buffer. -/
structure Exclusive (c : Callers κ) : Prop where
  count : c.calls.countP Stage.InStartWrite + c.inFlight.length = c.connection.isWriting.toNat
  buffer : ∀ w ∈ c.inFlight, c.connection.writeBuffer.constBuffer = w.bytes

theorem Exclusive.atMostOne (h : Exclusive c) :
    c.calls.countP Stage.InStartWrite + c.inFlight.length ≤ 1 := by
  rw [h.count]
  exact Bool.toNat_le _

/-- The step of a call changes the count by what it does to that call. -/
theorem countP_set_add (new : Stage) {stage : Stage} (hk : c.calls[k]? = some stage) :
    (c.calls.set k new).countP Stage.InStartWrite + [stage].countP Stage.InStartWrite =
      c.calls.countP Stage.InStartWrite + [new].countP Stage.InStartWrite := by
  obtain ⟨hlt, hget⟩ := List.getElem?_eq_some_iff.mp hk
  have hone : [stage].countP Stage.InStartWrite ≤ c.calls.countP Stage.InStartWrite := by
    apply List.Sublist.countP_le
    rw [List.singleton_sublist, ← hget]
    exact List.getElem_mem hlt
  rw [List.countP_set hlt, hget]
  rw [List.countP_singleton] at hone ⊢
  rw [List.countP_singleton]
  omega

/-- A call in `start_write` is alone, and no write is in flight. -/
theorem Exclusive.of_inStartWrite {stage : Stage} (h : Exclusive c)
    (hk : c.calls[k]? = some stage) (hs : stage.InStartWrite) :
    c.calls.countP Stage.InStartWrite = 1 ∧ c.inFlight = [] ∧ c.connection.isWriting = true := by
  have hpos : 0 < c.calls.countP Stage.InStartWrite :=
    List.countP_pos_iff.mpr ⟨stage, List.mem_of_getElem? hk, decide_eq_true hs⟩
  have hle := h.atMostOne
  have hcount := h.count
  refine ⟨by omega, List.length_eq_zero_iff.mp (by omega), ?_⟩
  cases hw : c.connection.isWriting with
  | true => rfl
  | false =>
      rw [hw] at hcount
      simp only [Bool.toNat_false] at hcount
      omega

theorem handleWrite_isWriting (failed : Bool) (size : Nat) (s : Connection κ) :
    (handleWrite failed size s).isWriting = false := by
  unfold handleWrite
  dsimp only
  split_ifs <;> rfl

theorem encryptWriteBuffer_isWriting (s : Connection κ) :
    (encryptWriteBuffer env s).isWriting = s.isWriting := by
  cases h : s.cipher with
  | none => rw [encryptWriteBuffer_of_none env h]
  | some cipher => rw [encryptWriteBuffer_of_some env h]

/-- A completed write leaves no other in flight. -/
theorem Exclusive.complete {w : PendingWrite} {s : Connection κ} (h : Exclusive c)
    (hw : c.inFlight[k]? = some w) (hs : s.isWriting = false) :
    Exclusive { c with connection := s, inFlight := c.inFlight.eraseIdx k } := by
  obtain ⟨hlt, _⟩ := List.getElem?_eq_some_iff.mp hw
  have hle := h.atMostOne
  have hlen := List.length_eraseIdx_add_one hlt
  have hnil : c.inFlight.eraseIdx k = [] := List.length_eq_zero_iff.mp (by omega)
  constructor
  · simp only [hnil, hs, List.length_nil, Bool.toNat_false]
    omega
  · simp only [hnil]
    nofun

/-- A step between two stages that count alike. -/
theorem Exclusive.move {stage new : Stage} {s : Connection κ} (h : Exclusive c)
    (hk : c.calls[k]? = some stage)
    (hnew : [new].countP Stage.InStartWrite = [stage].countP Stage.InStartWrite)
    (hw : s.isWriting = c.connection.isWriting)
    (hb : c.inFlight = [] ∨ s.writeBuffer = c.connection.writeBuffer) :
    Exclusive { connection := s, calls := c.calls.set k new, inFlight := c.inFlight ++ [] } := by
  have hset := countP_set_add new hk
  rw [List.append_nil]
  constructor
  · rw [hw, ← h.count]
    dsimp only
    omega
  · rcases hb with hnil | hsame
    · simp only [hnil]
      nofun
    · rw [hsame]
      exact h.buffer

theorem Exclusive.advance {stage : Stage} (h : Exclusive c) (hk : c.calls[k]? = some stage)
    (hg : stage = .store → c.connection.isWriting = false) :
    Exclusive
      { connection := (Stage.next env (stage, c.connection)).2
        calls := c.calls.set k (Stage.next env (stage, c.connection)).1
        inFlight := c.inFlight ++ stage.posted env c.connection } := by
  have hset := countP_set_add (Stage.next env (stage, c.connection)).1 hk
  cases stage with
  | push packet => exact h.move hk rfl rfl (.inr rfl)
  | test =>
      refine h.move hk ?_ rfl (.inr rfl)
      simp only [Stage.next]
      split_ifs <;> rfl
  | testAgain =>
      refine h.move hk ?_ rfl (.inr rfl)
      simp only [Stage.next]
      split_ifs <;> rfl
  | store =>
      have hidle := hg rfl
      have hcount := h.count
      rw [hidle] at hcount
      simp only [Bool.toNat_false] at hcount
      have hnone : c.inFlight = [] := List.length_eq_zero_iff.mp (by omega)
      have hzero : c.calls.countP Stage.InStartWrite = 0 := by omega
      constructor
      · simp only [hnone, Stage.posted, List.append_nil, List.length_nil]
        rw [hzero] at hset
        exact hset
      · simp only [hnone, Stage.posted]
        nofun
  | drain =>
      obtain ⟨_, hnone, _⟩ := h.of_inStartWrite hk trivial
      exact h.move hk rfl rfl (.inl hnone)
  | post batch =>
      obtain ⟨hone, hnone, hwriting⟩ := h.of_inStartWrite hk trivial
      constructor
      · have hw : (Stage.next env (.post batch, c.connection)).2.isWriting = true :=
          (encryptWriteBuffer_isWriting c.connection).trans hwriting
        rw [hw]
        rw [hone] at hset
        simp only [hnone, Stage.posted, List.nil_append, List.length_singleton]
        have hold : [Stage.post batch].countP Stage.InStartWrite = 1 := rfl
        have hnew : [(Stage.next env (.post batch, c.connection)).1].countP
            Stage.InStartWrite = 0 := rfl
        rw [hold, hnew] at hset
        simp only [Bool.toNat_true]
        omega
      · intro w hw
        rw [hnone, List.nil_append] at hw
        rw [List.mem_singleton.mp hw]
        rfl
  | returned => exact h.move hk rfl rfl (.inr rfl)

theorem Exclusive.step {e : CallersEvent κ} (hg : StoresOverFalse c e)
    (hstep : step env c e = some c') (h : Exclusive c) : Exclusive c' := by
  cases e with
  | call packet =>
      cases hstep
      refine ⟨?_, h.buffer⟩
      rw [← h.count, List.countP_append]
      rfl
  | advance k =>
      obtain ⟨stage, hk, rfl⟩ := Option.map_eq_some_iff.mp hstep
      apply h.advance hk
      rintro rfl
      exact hg hk
  | writeCompleted k =>
      obtain ⟨w, hw, rfl⟩ := Option.map_eq_some_iff.mp hstep
      exact h.complete hw (handleWrite_isWriting ..)
  | writeFailed k size =>
      obtain ⟨w, hw, rfl⟩ := Option.map_eq_some_iff.mp hstep
      exact h.complete hw (handleWrite_isWriting ..)
  | elsewhere s =>
      simp only [Callers.step] at hstep
      split_ifs at hstep with hs
      cases hstep
      obtain ⟨_, hw, hb⟩ := hs
      constructor
      · rw [hw]
        exact h.count
      · rw [hb]
        exact h.buffer

/-- In every run in which no call stores `true` over a `true`, at most one write
is in flight, and the write buffer still holds its bytes. -/
theorem one_write_in_flight_of_run {now : Int} {es : List (CallersEvent κ)}
    (run : GuardedRun (step env) StoresOverFalse { connection := create now } es c) :
    c.inFlight.length ≤ 1 ∧
      ∀ w ∈ c.inFlight, c.connection.writeBuffer.constBuffer = w.bytes := by
  have h : Exclusive c := by
    apply run.invariant (fun _ _ _ hg hstep h => h.step hg hstep)
    exact ⟨rfl, nofun⟩
  exact ⟨by have := h.atMostOne; omega, h.buffer⟩

instance (c : Callers κ) (e : CallersEvent κ) : Decidable (StoresOverFalse c e) :=
  match e with
  | .advance k => inferInstanceAs (Decidable (c.calls[k]? = some .store → _))
  | .call _ | .writeCompleted _ | .writeFailed _ _ | .elsewhere _ => .isTrue trivial

/-- Two calls, of which the second finds the first in `start_write`. -/
def queuedEvents : List (CallersEvent Byte) :=
  [.call (.kick ⟨[0x62]⟩), .advance 0, .advance 0, .call (.keepAlive {}), .advance 0, .advance 0,
    .advance 1, .advance 1, .advance 0, .advance 0]

theorem one_write_in_flight_of_run_queued : ∃ c : Callers Byte,
    GuardedRun (step chainEnvironment) StoresOverFalse { connection := create 0 } queuedEvents c ∧
      c.calls = [.returned, .returned] ∧ c.inFlight.length ≤ 1 ∧
      ∀ w ∈ c.inFlight, c.connection.writeBuffer.constBuffer = w.bytes := by
  obtain ⟨c, hrun, hcalls⟩ := exists_guardedRun (step chainEnvironment) StoresOverFalse
    { connection := create 0 } queuedEvents (fun c => c.calls = [.returned, .returned])
    (by decide +kernel)
  exact ⟨c, hrun, hcalls, one_write_in_flight_of_run hrun⟩

/-- Two calls pass both tests before either stores. A third packet arrives
before the second call drains the queue. -/
def racingEvents : List (CallersEvent Byte) :=
  [.call (.kick ⟨[0x62]⟩), .advance 0, .advance 0, .advance 0,
    .call (.keepAlive {}), .advance 1, .advance 1, .advance 1,
    .advance 0, .advance 0, .advance 0,
    .call (.keepAlive ⟨1⟩), .advance 2,
    .advance 1, .advance 1, .advance 1]

/-- Then two writes are in flight, and the write buffer is no longer what the
first of them was posted with. -/
theorem two_writes_in_flight : ∃ c : Callers Byte,
    GuardedRun (step chainEnvironment) Unguarded { connection := create 0 } racingEvents c ∧
      c.inFlight.length = 2 ∧
      ∃ w ∈ c.inFlight, c.connection.writeBuffer.constBuffer ≠ w.bytes :=
  exists_guardedRun _ _ _ _ _ (by decide +kernel)

end Callers

end CarpetSrv.Network
