import CarpetSrv.Network.PacketRound
import CarpetSrv.Network.RunInvariant

/-!
# Reading a stream chunk by chunk

A run of read completions delivers a byte stream in chunks. `Progress` says
which packets the handlers were called for, and this file gives it for the
chunks that matter: those that are not looked at, and those that start with a
packet and end within it.

## Implementation notes

A run without a cipher is considered. What one read finds around it may differ
from read to read, but `RAND_bytes` answers.
-/

namespace CarpetSrv.Network.Connection

open Foundation Packet Utils Buffer

variable {κ : Type}

/-! ## Chunks -/

/-- The bytes of one read completion and what the read finds around it. -/
abbrev Chunk := List Byte × Ambient

def readChunk (env : Environment κ) (s : Connection κ) (c : Chunk) : Option (Connection κ) :=
  step env s (.readCompleted c.1 c.2)

/-- No cipher is installed, the chunk is not empty, and `RAND_bytes` answers. -/
def Readable (s : Connection κ) (c : Chunk) : Prop :=
  s.cipher = none ∧ c.1 ≠ [] ∧ c.2.rand.isSome = true

instance (s : Connection κ) (c : Chunk) : Decidable (Readable s c) :=
  inferInstanceAs (Decidable (_ ∧ _))

/-- A run of read completions with these chunks. -/
abbrev Reading (env : Environment κ) : Connection κ → List Chunk → Connection κ → Prop :=
  GuardedRun (readChunk env) Readable

/-- The bytes that a list of chunks delivers. -/
def bytesOf (cs : List Chunk) : List Byte := cs.flatMap Prod.fst

/-- A read is outstanding, and its region is posted. -/
structure Listening (s : Connection κ) : Prop where
  posted : Posted s
  pendingRead : s.socket.pendingRead = true

/-- The handlers of these packets have been called, in order, and nothing else. -/
structure Progress (env : Environment κ) (ps : List ClientPacket) (s t : Connection κ) : Prop where
  processing : processing t = processing s ++ ps.flatMap (callOf env)
  status : t.status = ps.foldl (fun status p => statusAfter p status) s.status
  player : t.player =
    s.player.map fun player => ps.foldl (fun player p => playerAfter env p player) player
  cipher : t.cipher = none

section Progress

variable {env : Environment κ} {s t u : Connection κ} {ps qs : List ClientPacket}

theorem Progress.trans (h : Progress env ps s t) (h' : Progress env qs t u) :
    Progress env (ps ++ qs) s u where
  processing := by
    calc
      Connection.processing u = Connection.processing t ++ qs.flatMap (callOf env) := h'.processing
      _ = Connection.processing s ++ ps.flatMap (callOf env) ++ qs.flatMap (callOf env) := by
        rw [h.processing]
      _ = Connection.processing s ++ (ps ++ qs).flatMap (callOf env) := by
        rw [List.flatMap_append, List.append_assoc]
  status := by
    rw [h'.status, h.status, List.foldl_append]
  player := by
    rw [h'.player, h.player, Option.map_map]
    simp only [List.foldl_append]
    rfl
  cipher := h'.cipher

theorem Progress.of_same (hc : s.cipher = none) (h : SameProgress s t) : Progress env [] s t where
  processing := by rw [h.processing, List.flatMap_nil, List.append_nil]
  status := h.status
  player := h.player.trans (Option.map_id' ..).symm
  cipher := h.cipher.trans hc

theorem Progress.of_called {p : ClientPacket} (hid : p.id ≠ 0xFC) (hc : s.cipher = none)
    (h : Called env p s t) : Progress env [p] s t where
  processing := by rw [h.processing, List.flatMap_singleton]
  status := h.status
  player := h.player
  cipher := h.cipher hid hc

/-- Two runs that made the same progress agree. -/
theorem Progress.agree (h : Progress env ps s t) (h' : Progress env ps s u) :
    Connection.processing u = Connection.processing t ∧ u.status = t.status ∧
      u.player = t.player :=
  ⟨h'.processing.trans h.processing.symm, h'.status.trans h.status.symm,
    h'.player.trans h.player.symm⟩

end Progress

/-! ## One chunk -/

section Chunk

variable {env : Environment κ} {s t : Connection κ} {c : Chunk} {p : ClientPacket} {ys : List Byte}

theorem readChunk_of_fits (env : Environment κ) (hw : Listening s)
    (hl : c.1.length ≤ s.regionLength) :
    readChunk env s c = some (handleRead env c.2 c.1.length (receive c.1 s)) := by
  rw [readChunk, step, if_pos ⟨hw.pendingRead, hl⟩]

theorem fits_of_readChunk (h : readChunk env s c = some t) : c.1.length ≤ s.regionLength := by
  cases step_cases h with
  | readCompleted _ hl => exact hl

theorem listening_startRead (h : s.readBuffer.data.length ≤ readBufferSize) :
    Listening (startRead s) :=
  ⟨startRead_posted h, rfl⟩

/-- A read completion whose loop makes this progress and consumes `n` bytes. -/
theorem readChunk_progress (env : Environment κ) (ps : List ClientPacket) {n : Nat}
    (hw : Listening s)
    (hc : s.cipher = none) (hl : c.1.length ≤ s.regionLength)
    (hps : Progress env ps (receive c.1 s) (processPackets env c.2 c.1.length (receive c.1 s)))
    (hn : (processPackets env c.2 c.1.length (receive c.1 s)).readBuffer =
      (receive c.1 s).readBuffer.advance n) :
    ∃ t, readChunk env s c = some t ∧ Listening t ∧ Progress env ps s t ∧
      t.readBuffer.readPos = nextPosition (s.readBuffer.readPos + n) := by
  have hlen : (processPackets env c.2 c.1.length (receive c.1 s)).readBuffer.data.length =
      readBufferSize := by
    rw [hn]
    exact hw.posted.length_receive hl
  refine ⟨_, readChunk_of_fits env hw hl, ?_⟩
  rw [handleRead_of_no_cipher hc]
  refine ⟨listening_startRead (Nat.le_of_eq hlen), ?_, ?_⟩
  · have hreceived : Progress env [] s (receive c.1 s) := .of_same hc (.receive c.1 s)
    have hread := (hreceived.trans hps).trans (.of_same hps.cipher (.startRead _))
    rwa [List.append_nil] at hread
  · rw [startRead_readPos hlen, hn]
    rfl

theorem nextPosition_of_lt {n : Nat} (h : n < readBufferSize) : nextPosition n = n :=
  if_neg (Nat.not_le.mpr h)

/-- A chunk that is not longer than the read position is not looked at. -/
theorem readChunk_quiet (env : Environment κ) (hw : Listening s) (hc : s.cipher = none)
    (hl : c.1.length ≤ s.regionLength) (h : c.1.length ≤ s.readBuffer.readPos) :
    ∃ t, readChunk env s c = some t ∧ Listening t ∧ Progress env [] s t ∧
      t.readBuffer.readPos = s.readBuffer.readPos := by
  have hsame : processPackets env c.2 c.1.length (receive c.1 s) = receive c.1 s :=
    processPackets_of_le h
  obtain ⟨t, ht, hwt, hp, hpos⟩ := readChunk_progress env [] (n := 0) hw hc hl
    (.of_same hc ⟨congrArg processing hsame, congrArg status hsame, congrArg player hsame,
      congrArg cipher hsame⟩) ((congrArg readBuffer hsame).trans (ReadCursor.advance_zero _).symm)
  exact ⟨t, ht, hwt, hp, hpos.trans (nextPosition_of_lt hw.posted.2)⟩

/-- A chunk whose bytes, with what stands behind them, start with one packet
and end within it dispatches this packet. -/
theorem readChunk_calls (env : Environment κ) (hw : Listening s) (hc : s.cipher = none)
    (hwf : p.WellFormed)
    (hid : p.id ≠ 0xFC) (hacc : Accepts env c.2 s.status p)
    (hl : c.1.length ≤ s.regionLength) (hrest : (receive c.1 s).readBuffer.rest = front p ++ ys)
    (h : s.readBuffer.readPos < c.1.length)
    (hle : c.1.length ≤ s.readBuffer.readPos + (front p).length) :
    ∃ t, readChunk env s c = some t ∧ Listening t ∧ Progress env [p] s t ∧
      t.readBuffer.readPos = nextPosition (s.readBuffer.readPos + (front p).length) := by
  have hcalled : Called env p (receive c.1 s) _ := processPackets_calls hwf hacc hrest h hle
  exact readChunk_progress env [p] hw hc hl (.of_called hid hc hcalled) hcalled.readBuffer

/-- A chunk with two packets dispatches both when its loop bound is behind the first one. -/
theorem readChunk_calls_two (env : Environment κ) {q : ClientPacket} (hw : Listening s)
    (hc : s.cipher = none)
    (hwf : p.WellFormed) (hid : p.id ≠ 0xFC) (hacc : Accepts env c.2 s.status p)
    (hwfq : q.WellFormed) (hidq : q.id ≠ 0xFC)
    (haccq : Accepts env c.2 (statusAfter p s.status) q) (hl : c.1.length ≤ s.regionLength)
    (hrest : (receive c.1 s).readBuffer.rest = front p ++ (front q ++ ys))
    (h : s.readBuffer.readPos + (front p).length < c.1.length)
    (hle : c.1.length ≤ s.readBuffer.readPos + ((front p).length + (front q).length)) :
    ∃ t, readChunk env s c = some t ∧ Listening t ∧ Progress env [p, q] s t ∧
      t.readBuffer.readPos =
        nextPosition (s.readBuffer.readPos + ((front p).length + (front q).length)) := by
  obtain ⟨u, hu, hfirst⟩ := round_calls env c.2 (s := receive c.1 s) hwf hacc hrest
  have hupos : u.readBuffer.readPos = s.readBuffer.readPos + (front p).length := by
    rw [hfirst.readBuffer]
    rfl
  have hurest : u.readBuffer.rest = front q ++ ys := by
    rw [hfirst.readBuffer]
    exact ReadCursor.rest_advance _ hrest
  have haccu : Accepts env c.2 u.status q := by
    rw [hfirst.status]
    exact haccq
  have hloop : processPackets env c.2 c.1.length (receive c.1 s) =
      processPackets env c.2 c.1.length u :=
    processPackets_of_round (by rw [receive_readPos]; omega) hu
  have hsecond : Called env q u (processPackets env c.2 c.1.length u) :=
    processPackets_calls hwfq haccu hurest (by omega) (by omega)
  have hp : Progress env [p] (receive c.1 s) u := .of_called hid hc hfirst
  refine readChunk_progress env [p, q] hw hc hl ?_ ?_
  · rw [hloop]
    exact hp.trans (.of_called hidq hp.cipher hsecond)
  · rw [hloop, hsecond.readBuffer, hfirst.readBuffer, ReadCursor.advance_advance]

end Chunk

/-! ## Chunks that are not looked at -/

section Quiet

variable {env : Environment κ} {s t : Connection κ} {cs : List Chunk} {a : Ambient}

/-- Chunks that together are not longer than the read position are not looked at. -/
theorem reading_quiet (run : Reading env s cs t) (hw : Listening s)
    (h : (bytesOf cs).length ≤ s.readBuffer.readPos) (hc : s.cipher = none) :
    Progress env [] s t := by
  induction run with
  | refl s => exact .of_same hc ⟨rfl, rfl, rfl, rfl⟩
  | cons hr hstep _ ih =>
      rw [bytesOf, List.flatMap_cons, List.length_append] at h
      obtain ⟨m, hm, hwm, hp, hpos⟩ := readChunk_quiet env hw hc
        (fits_of_readChunk hstep) (Nat.le_trans (Nat.le_add_right ..) h)
      cases hm.symm.trans hstep
      refine hp.trans (ih hwm ?_ hp.cipher)
      rw [hpos]
      exact Nat.le_trans (Nat.le_add_left ..) h

def bytewise (a : Ambient) (bytes : List Byte) : List Chunk := bytes.map fun byte => ([byte], a)

@[simp] theorem bytesOf_bytewise (bytes : List Byte) : bytesOf (bytewise a bytes) = bytes := by
  induction bytes with
  | nil => rfl
  | cons byte bytes ih => exact congrArg (byte :: ·) ih

/-- Single bytes are not looked at once the read position has left the start. -/
theorem exists_reading_quiet (env : Environment κ) (hrand : a.rand.isSome = true)
    (bytes : List Byte) (hw : Listening s)
    (hpos : 0 < s.readBuffer.readPos) (hc : s.cipher = none) :
    ∃ t, Reading env s (bytewise a bytes) t ∧ Listening t ∧ Progress env [] s t ∧
      t.readBuffer.readPos = s.readBuffer.readPos := by
  induction bytes generalizing s with
  | nil => exact ⟨s, .refl s, hw, .of_same hc ⟨rfl, rfl, rfl, rfl⟩, rfl⟩
  | cons byte bytes ih =>
      have hfits : [byte].length ≤ s.regionLength := by
        have := hw.posted.1
        have := hw.posted.2
        rw [regionLength, List.length_singleton]
        omega
      obtain ⟨m, hm, hwm, hp, heq⟩ :=
        readChunk_quiet env (c := ([byte], a)) hw hc hfits hpos
      obtain ⟨t, ht, hwt, hpt, heqt⟩ := ih hwm (heq ▸ hpos) hp.cipher
      exact ⟨t, .cons ⟨hc, nofun, hrand⟩ hm ht, hwt, hp.trans hpt, heqt.trans heq⟩

end Quiet

/-! ## The first read -/

section Opened

variable {env : Environment κ} {player : Player} {now : Int}

theorem opened_readBuffer : (opened player now : Connection κ).readBuffer =
    ⟨List.replicate readBufferSize 0, 0, []⟩ := by
  have hb : (opened player now : Connection κ).readBuffer = (clearBuffer {}).mutableBuffer := rfl
  have hempty : (clearBuffer {}).size < readBufferSize := by decide
  have hresize : ∀ n, resize n (clearBuffer {}) = ⟨List.replicate n 0, 0, []⟩ := fun n => by
    simp [resize, clearBuffer]
  rw [hb, mutableBuffer, if_pos hempty, hresize]

theorem listening_opened : Listening (opened player now : Connection κ) :=
  listening_startRead (Nat.zero_le _)

theorem regionLength_opened : (opened player now : Connection κ).regionLength = readBufferSize := by
  rw [regionLength, listening_opened.posted.1, opened_readBuffer, Nat.sub_zero]

theorem processing_opened : processing (opened player now : Connection κ) = [] := rfl

/-- Zeros stand behind the first chunk. -/
theorem rest_opened (bytes : List Byte) :
    (receive bytes (opened player now : Connection κ)).readBuffer.rest =
      bytes ++ List.replicate (readBufferSize - bytes.length) 0 := by
  rw [rest_receive listening_opened.posted, opened_readBuffer, List.drop_replicate, Nat.zero_add]

end Opened

end CarpetSrv.Network.Connection
