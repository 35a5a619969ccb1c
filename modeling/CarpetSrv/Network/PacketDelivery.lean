import CarpetSrv.Network.PacketRound

/-!
# Packet-aligned delivery

A client sends complete packets, and each arrives in one read completion. The
loop of `process_packets` compares the read position, which is an index into
the vector, with the number of bytes of this read. A packet is dispatched
exactly when it is longer than the position at which it arrives, and a packet
that is not is overwritten by the next one. The handler of a position finds the
coordinates in their places only if the order in which the compiler evaluates
the arguments of `set` leaves them there.

## Implementation notes

Between two packets, anything may happen that does not concern the reading
side: writes complete, packets are queued, and the server ticks and kicks.
-/

namespace CarpetSrv.Network

open Foundation Foundation.ExceptState Packet Utils Buffer Connection

variable {κ : Type}

/-- The event belongs to the reading side. -/
def ConnectionEvent.isReading : ConnectionEvent → Bool
  | .handleConnection _ | .readCompleted .. | .readFailed => true
  | _ => false

/-- One packet in one read completion, or an event between two packets. -/
inductive Delivery
  | packet (p : ClientPacket) (ambient : Ambient)
  | between (e : ConnectionEvent)

namespace Delivery

def event : Delivery → ConnectionEvent
  | packet p ambient => .readCompleted p.encode ambient
  | between e => e

def packets : Delivery → List ClientPacket
  | packet p _ => [p]
  | between _ => []

end Delivery

namespace Connection

def deliver (env : Environment κ) (s : Connection κ) (d : Delivery) : Option (Connection κ) :=
  step env s d.event

/-- No cipher is installed, and the handler of the packet consumes its whole
body in the status at hand. -/
def Aligned (env : Environment κ) (s : Connection κ) : Delivery → Prop
  | .packet p ambient => s.cipher = none ∧ p.WellFormed ∧ Accepts env ambient s.status p ∧
      BodyRead s.status p
  | .between e => e.isReading = false

instance {env : Environment κ} [DecidableEq κ] (s : Connection κ) : ∀ d : Delivery,
    Decidable (Aligned env s d)
  | .packet _ _ => inferInstanceAs (Decidable (_ ∧ _ ∧ _ ∧ _))
  | .between e => inferInstanceAs (Decidable (e.isReading = false))

/-- The packet with the values that it carries on the wire. -/
def carried (env : Environment κ) : ClientPacket → HandledPacket
  | .playerPosition x y z stance onGround =>
      .playerPosition { location := ⟨x, y, z⟩, stance := stance, onGround := onGround != 0 }
  | p => decoded env p

/-- The packet is dispatched, and its handler acts on the values on the wire. -/
def callOnWire (env : Environment κ) (p : ClientPacket) : List Processing :=
  [.dispatched p.id, .handled (carried env p)]

/-- Every step makes the call for the packet it delivers, once, and no other. -/
def EachDispatched (call : ClientPacket → List Processing) (env : Environment κ) :
    Connection κ → List Delivery → Prop
  | _, [] => True
  | s, d :: ds => ∀ t, deliver env s d = some t →
      processing t = processing s ++ d.packets.flatMap call ∧ EachDispatched call env t ds

/-- Each packet is longer than the position at which it arrives. -/
def Ahead : Nat → List ClientPacket → Prop
  | _, [] => True
  | n, p :: ps => n < p.encode.length ∧ Ahead (nextPosition (n + p.encode.length)) ps

/-- This order gives each argument of `set` the coordinate that stands in its place. -/
def InPlace (order : Equiv.Perm (Fin 3)) : ClientPacket → Prop
  | .playerPosition x y z _ _ => ∀ i, ![x, y, z] (order.symm i) = ![x, y, z] i
  | _ => True

instance (order : Equiv.Perm (Fin 3)) : DecidablePred (InPlace order)
  | .playerPosition x y z _ _ =>
      inferInstanceAs (Decidable (∀ i, ![x, y, z] (order.symm i) = ![x, y, z] i))
  | .serverPing _ | .clientProtocol .. | .sharedKey .. | .clientInfo .. | .keepAlive _ =>
      .isTrue trivial

/-- From left to right, every coordinate is in its place. From right to left, x
and z are exchanged. -/
theorem inPlace_playerPosition (x y z stance : Double) (onGround : Byte) :
    InPlace leftToRight (.playerPosition x y z stance onGround) ∧
      (InPlace rightToLeft (.playerPosition x y z stance onGround) ↔ x = z) := by
  refine ⟨fun _ => rfl, fun h => (h 0).symm, ?_⟩
  rintro rfl
  exact Fin.forall_fin_succ.mpr ⟨rfl, Fin.forall_fin_succ.mpr ⟨rfl, Fin.forall_fin_one.mpr rfl⟩⟩

/-- The handler decodes the values on the wire exactly when they are left in their places. -/
theorem decoded_eq_carried_iff (env : Environment κ) (p : ClientPacket) :
    decoded env p = carried env p ↔ InPlace env.argumentOrder p := by
  cases p with
  | playerPosition x y z stance onGround =>
      have hwire : carried env (.playerPosition x y z stance onGround) =
          .playerPosition (playerPositionPacket leftToRight x y z stance onGround) := rfl
      rw [hwire, decoded, HandledPacket.playerPosition.injEq, playerPositionPacket_eq_iff]
      exact and_iff_left ⟨rfl, rfl⟩
  | _ => exact iff_of_true rfl trivial

theorem callOf_eq_callOnWire_iff (env : Environment κ) (p : ClientPacket) :
    callOf env p = callOnWire env p ↔ InPlace env.argumentOrder p := by
  rw [← decoded_eq_carried_iff]
  simp [callOf, callOnWire]

theorem front_of_bodyRead {status : Status} {p : ClientPacket} (h : BodyRead status p) :
    front p = p.encode := by
  cases p with
  | keepAlive _ => cases h
  | _ => rfl

section Steps

variable {env : Environment κ} {ambient : Ambient} {s t : Connection κ} {p : ClientPacket}

/-- A packet that is longer than the read position is dispatched. -/
theorem deliver_ahead (hready : ReadReady s) (hal : Aligned env s (.packet p ambient))
    (hstep : deliver env s (.packet p ambient) = some t)
    (h : s.readBuffer.readPos < p.encode.length) :
    processing t = processing s ++ callOf env p ∧
      t.readBuffer.readPos = nextPosition (s.readBuffer.readPos + p.encode.length) := by
  obtain ⟨hc, hwf, hacc, hread⟩ := hal
  cases step_cases hstep with
  | readCompleted hr hl =>
      have hp := hready.posted hr
      have hfront := front_of_bodyRead hread
      have hrest := rest_receive hp p.encode
      rw [← hfront] at hrest h
      have hcalled : Called env p (receive (front p) s) _ :=
        processPackets_calls hwf hacc hrest h (Nat.le_add_left ..)
      rw [hfront] at hcalled
      rw [handleRead_of_no_cipher hc]
      constructor
      · rw [(SameProgress.startRead _).processing, hcalled.processing,
          (SameProgress.receive p.encode s).processing]
      · rw [startRead_readPos, hcalled.readBuffer, hfront]
        · rfl
        · rw [hcalled.readBuffer]
          exact hp.length_receive hl

/-- A packet that is not is left unread, and the next read overwrites it. -/
theorem deliver_behind (hready : ReadReady s) (hal : Aligned env s (.packet p ambient))
    (hstep : deliver env s (.packet p ambient) = some t)
    (h : p.encode.length ≤ s.readBuffer.readPos) :
    processing t = processing s ∧ t.readBuffer.readPos = s.readBuffer.readPos := by
  cases step_cases hstep with
  | readCompleted hr hl =>
      have hp := hready.posted hr
      rw [handleRead_of_no_cipher hal.1, processPackets_of_le (s := receive p.encode s) h]
      constructor
      · rw [(SameProgress.startRead _).processing, (SameProgress.receive p.encode s).processing]
      · rw [startRead_readPos (hp.length_receive hl)]
        exact if_neg (Nat.not_le.mpr hp.2)

/-- Events outside the reading side call no handler and leave the read buffer. -/
theorem deliver_between {e : ConnectionEvent} (he : e.isReading = false)
    (hstep : deliver env s (.between e) = some t) :
    processing t = processing s ∧ t.readBuffer = s.readBuffer := by
  have hkick : ∀ reason, processing (disconnectWith env reason s) = processing s := fun reason =>
    (observe_disconnectWith env reason s (fun _ _ => rfl) rfl).trans
      ((List.append_nil _).trans (List.append_nil _))
  cases step_cases hstep with
  | handleConnection _ _ => cases he
  | readCompleted _ _ => cases he
  | readFailed _ => cases he
  | writeCompleted _ _ =>
      refine ⟨(observe_handleWrite rfl rfl _ _ _).trans ?_, handleWrite_readBuffer ..⟩
      exact observe_emit_none rfl _
  | writeFailed _ => exact ⟨observe_handleWrite rfl rfl _ _ _, handleWrite_readBuffer ..⟩
  | sendKeepAlive =>
      unfold sendKeepAlive
      split_ifs
      · exact ⟨hkick _, disconnectWith_readBuffer ..⟩
      · exact ⟨observe_emit_none rfl _, rfl⟩
      · exact ⟨rfl, rfl⟩
  | kickPlayer => exact ⟨hkick _, disconnectWith_readBuffer ..⟩
  | addPacketToQueue =>
      refine ⟨(observe_addPacketToQueue env _ s fun _ _ => rfl).trans (List.append_nil _), ?_⟩
      exact addPacketToQueue_readBuffer ..

end Steps

/-! ## Runs -/

section Run

variable {env : Environment κ} {s t : Connection κ} {ds : List Delivery}

/-- When each packet is ahead of its position, each is dispatched as the handler decodes it. -/
theorem eachDispatched_of_ahead (run : GuardedRun (deliver env) (Aligned env) s ds t)
    (hready : ReadReady s) (h : Ahead s.readBuffer.readPos (ds.flatMap Delivery.packets)) :
    EachDispatched (callOf env) env s ds := by
  induction run with
  | refl s => trivial
  | cons hal hstep _ ih =>
      rename_i s m _ d ds _
      intro t ht
      cases hstep.symm.trans ht
      have hm := ReadReady.step hstep hready
      cases d with
      | packet p ambient =>
          obtain ⟨hcall, hpos⟩ := deliver_ahead hready hal hstep h.1
          refine ⟨hcall.trans (by simp [Delivery.packets]), ih hm ?_⟩
          rw [hpos]
          exact h.2
      | between e =>
          obtain ⟨hcall, hbuf⟩ := deliver_between hal hstep
          refine ⟨hcall.trans (by simp [Delivery.packets]), ih hm ?_⟩
          rw [hbuf]
          exact h

/-- Calls that are the same for the packets that are delivered. -/
theorem EachDispatched.congr {call call' : ClientPacket → List Processing}
    (h : EachDispatched call env s ds)
    (heq : ∀ p ∈ ds.flatMap Delivery.packets, call p = call' p) :
    EachDispatched call' env s ds := by
  induction ds generalizing s with
  | nil => trivial
  | cons d ds ih =>
      rw [List.flatMap_cons, List.forall_mem_append] at heq
      intro t ht
      obtain ⟨hcall, hrest⟩ := h t ht
      exact ⟨hcall.trans (congrArg _ (List.flatMap_congr heq.1)), ih hrest heq.2⟩

/-- When each packet is dispatched, the handlers have run once per packet, in order. -/
theorem processing_of_eachDispatched {call : ClientPacket → List Processing}
    (run : GuardedRun (deliver env) (Aligned env) s ds t) (h : EachDispatched call env s ds) :
    processing t = processing s ++ (ds.flatMap Delivery.packets).flatMap call := by
  induction run with
  | refl s => exact (List.append_nil _).symm
  | cons _ hstep _ ih =>
      rename_i s m t d ds _ _
      obtain ⟨hcall, hrest⟩ := h m hstep
      calc
        processing t = processing m ++ (ds.flatMap Delivery.packets).flatMap call :=
          ih hrest
        _ = processing s ++ d.packets.flatMap call ++
            (ds.flatMap Delivery.packets).flatMap call := by rw [hcall]
        _ = processing s ++ ((d :: ds).flatMap Delivery.packets).flatMap call := by
          rw [List.flatMap_cons, List.flatMap_append, List.append_assoc]

/-- Every delivery adds two entries or none, so that a full count needs each
packet to be ahead of its position. -/
theorem ahead_of_length (run : GuardedRun (deliver env) (Aligned env) s ds t)
    (hready : ReadReady s) :
    (processing t).length ≤ (processing s).length + 2 * (ds.flatMap Delivery.packets).length ∧
      ((processing t).length = (processing s).length + 2 * (ds.flatMap Delivery.packets).length →
        Ahead s.readBuffer.readPos (ds.flatMap Delivery.packets)) := by
  induction run with
  | refl s => exact ⟨Nat.le_refl _, fun _ => trivial⟩
  | cons hal hstep _ ih =>
      rename_i s m _ d ds _
      obtain ⟨hle, hahead⟩ := ih (ReadReady.step hstep hready)
      cases d with
      | packet p ambient =>
          rw [List.flatMap_cons, Delivery.packets, List.singleton_append, List.length_cons]
          by_cases h : s.readBuffer.readPos < p.encode.length
          · obtain ⟨hcall, hpos⟩ := deliver_ahead hready hal hstep h
            have hlen : (processing m).length = (processing s).length + 2 := by
              rw [hcall, List.length_append]
              rfl
            refine ⟨by omega, fun heq => ⟨h, ?_⟩⟩
            rw [← hpos]
            exact hahead (by omega)
          · have hsame := (deliver_behind hready hal hstep (Nat.not_lt.mp h)).1
            rw [hsame] at hle
            exact ⟨by omega, fun heq => absurd heq (by omega)⟩
      | between e =>
          obtain ⟨hcall, hbuf⟩ := deliver_between hal hstep
          rw [hcall] at hle hahead
          rw [hbuf] at hahead
          exact ⟨hle, hahead⟩

end Run

/-- Two entries for each packet. -/
theorem length_flatMap_callOnWire (env : Environment κ) (ps : List ClientPacket) :
    (ps.flatMap (callOnWire env)).length = 2 * ps.length := by
  induction ps with
  | nil => rfl
  | cons p ps ih =>
      rw [List.flatMap_cons, List.length_append, ih, List.length_cons, callOnWire]
      simp only [List.length_cons, List.length_nil]
      omega

/-- Equal histories of calls are equal call by call. -/
theorem inPlace_of_flatMap_eq {env : Environment κ} {ps : List ClientPacket}
    (h : ps.flatMap (callOf env) = ps.flatMap (callOnWire env)) :
    ∀ p ∈ ps, InPlace env.argumentOrder p := by
  induction ps with
  | nil => nofun
  | cons p ps ih =>
      obtain ⟨hfirst, hrest⟩ := List.append_inj h rfl
      exact List.forall_mem_cons.mpr ⟨(callOf_eq_callOnWire_iff env p).mp hfirst, ih hrest⟩

/-- In every run of packet-aligned deliveries, every read completion dispatches
exactly its packet with the values on the wire, and the handlers have run once
per packet in the order of arrival, exactly when each packet is longer than the
position at which it arrives, and the compiler's order of evaluation leaves the
coordinates of every position packet in their places. -/
theorem eachDispatched_iff_ahead_inPlace {env : Environment κ} {s t : Connection κ}
    {ds : List Delivery} (hready : ReadReady s)
    (run : GuardedRun (deliver env) (Aligned env) s ds t) :
    (EachDispatched (callOnWire env) env s ds ↔
      Ahead s.readBuffer.readPos (ds.flatMap Delivery.packets) ∧
        ∀ p ∈ ds.flatMap Delivery.packets, InPlace env.argumentOrder p) ∧
      (processing t = processing s ++ (ds.flatMap Delivery.packets).flatMap (callOnWire env) ↔
        Ahead s.readBuffer.readPos (ds.flatMap Delivery.packets) ∧
          ∀ p ∈ ds.flatMap Delivery.packets, InPlace env.argumentOrder p) := by
  have hto : (Ahead s.readBuffer.readPos (ds.flatMap Delivery.packets) ∧
      ∀ p ∈ ds.flatMap Delivery.packets, InPlace env.argumentOrder p) →
        EachDispatched (callOnWire env) env s ds := by
    rintro ⟨hahead, hplace⟩
    exact (eachDispatched_of_ahead run hready hahead).congr fun p hp =>
      (callOf_eq_callOnWire_iff env p).mpr (hplace p hp)
  have hall : EachDispatched (callOnWire env) env s ds → processing t = processing s ++
      (ds.flatMap Delivery.packets).flatMap (callOnWire env) := processing_of_eachDispatched run
  have hfrom : processing t = processing s ++
      (ds.flatMap Delivery.packets).flatMap (callOnWire env) →
        Ahead s.readBuffer.readPos (ds.flatMap Delivery.packets) ∧
          ∀ p ∈ ds.flatMap Delivery.packets, InPlace env.argumentOrder p := by
    intro h
    have hahead : Ahead s.readBuffer.readPos (ds.flatMap Delivery.packets) := by
      apply (ahead_of_length run hready).2
      rw [h, List.length_append, length_flatMap_callOnWire]
    have hcalled := processing_of_eachDispatched run (eachDispatched_of_ahead run hready hahead)
    exact ⟨hahead, inPlace_of_flatMap_eq (List.append_cancel_left (hcalled.symm.trans h))⟩
  exact ⟨⟨fun h => hfrom (hall h), hto⟩, ⟨hfrom, fun h => hall (hto h)⟩⟩

/-- The environment in which arguments are evaluated from right to left. -/
def reversedEnvironment : Environment Byte :=
  { chainEnvironment with argumentOrder := rightToLeft }

/-- A position packet of 34 bytes and, behind the answer to a ping of the
server, a handshake of 36 bytes. -/
def growingDeliveries : List Delivery :=
  [.packet (.playerPosition 1 2 1 4 1) chainAmbient, .between (.addPacketToQueue (.keepAlive ⟨7⟩)),
    .between .writeCompleted,
    .packet (.clientProtocol 51 (List.replicate 13 0x61) [] 0) chainAmbient]

/-- Packets that grow fast enough are all dispatched, here with arguments that
are evaluated from right to left and a position whose x is its z. -/
theorem eachDispatched_iff_ahead_inPlace_growing : ∃ t : Connection Byte,
    GuardedRun (deliver reversedEnvironment) (Aligned reversedEnvironment) (opened {} 0)
        growingDeliveries t ∧
      EachDispatched (callOnWire reversedEnvironment) reversedEnvironment (opened {} 0)
        growingDeliveries := by
  obtain ⟨t, hrun, _⟩ := exists_guardedRun
      (deliver reversedEnvironment) (Aligned reversedEnvironment) (opened {} 0)
      growingDeliveries
      (fun _ => True) (by decide +kernel)
  have hready : ReadReady (opened {} 0 : Connection Byte) := .startRead (Nat.zero_le _)
  refine ⟨t, hrun, (eachDispatched_iff_ahead_inPlace hready hrun).1.mpr ⟨?_, ?_⟩⟩
  · exact ⟨by decide, by decide, trivial⟩
  · exact List.forall_mem_cons.mpr ⟨(inPlace_playerPosition ..).2.mpr rfl, by decide⟩

def equalDeliveries : List Delivery :=
  [.packet (.playerPosition 1 2 3 4 1) chainAmbient,
    .packet (.playerPosition 5 6 7 8 1) chainAmbient]

/-- Of two position packets, only the first one is dispatched. From right to
left, even a single one is dispatched with x and z exchanged. -/
theorem second_position_is_lost :
    (∃ t : Connection Byte,
      GuardedRun (deliver chainEnvironment) (Aligned chainEnvironment) (opened {} 0)
          equalDeliveries t ∧
        processing t = callOnWire chainEnvironment (.playerPosition 1 2 3 4 1) ∧
        ¬ EachDispatched (callOnWire chainEnvironment) chainEnvironment (opened {} 0)
          equalDeliveries) ∧
    ∃ t : Connection Byte,
      GuardedRun (deliver reversedEnvironment) (Aligned reversedEnvironment) (opened {} 0)
          (equalDeliveries.take 1) t ∧
        processing t = callOnWire reversedEnvironment (.playerPosition 3 2 1 4 1) := by
  obtain ⟨t, hrun, hone⟩ := exists_guardedRun
      (deliver chainEnvironment) (Aligned chainEnvironment) (opened {} 0)
      equalDeliveries
      (fun t => processing t = callOnWire chainEnvironment (.playerPosition 1 2 3 4 1))
    (by decide +kernel)
  have hexchanged := exists_guardedRun
      (deliver reversedEnvironment) (Aligned reversedEnvironment) (opened {} 0)
      (equalDeliveries.take 1)
      (fun t => processing t = callOnWire reversedEnvironment (.playerPosition 3 2 1 4 1))
    (by decide +kernel)
  refine ⟨⟨t, hrun, hone, ?_⟩, hexchanged⟩
  intro h
  have hall := congrArg List.length (processing_of_eachDispatched hrun h)
  rw [hone] at hall
  revert hall
  decide

end Connection

end CarpetSrv.Network
