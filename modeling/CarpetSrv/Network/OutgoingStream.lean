import CarpetSrv.Foundation.BatchWriter
import CarpetSrv.Network.RunInvariant
import Mathlib.Data.List.TakeWhile

/-!
# The outgoing stream

The queue, the write buffer, `isWriting` and the encrypt context of a
connection together are a batch writer. `writer` is the abstraction map, and
each method that writes is one operation of the batch writer as long as the
connection is `Synced`. What the batch writer guarantees then holds of every
connection whose socket is open.

## Implementation notes

The write buffer is not part of the abstract state. It is empty between two
writes because every completion that leaves the socket open clears it.
-/

namespace CarpetSrv.Network.Connection

open Foundation Foundation.ExceptState Packet Utils

variable {κ : Type}

/-! ## The abstraction map -/

def enqueuedPacket : Effect → Option Packet
  | .enqueued p => some p
  | _ => none

def postedBatch : Effect → Option (List Packet)
  | .writePosted batch _ => some batch
  | _ => none

def postedBytes : Effect → Option (List Byte)
  | .writePosted _ bytes => some bytes
  | _ => none

def installedKey : Effect → Option (List Byte)
  | .cipherInstalled key => some key
  | _ => none

/-- The packets enqueued so far, in order. -/
def enqueuedPackets (s : Connection κ) : List Packet := observe enqueuedPacket s

/-- The packets handed to `async_write` so far, in order. -/
def handedPackets (s : Connection κ) : List Packet := (observe postedBatch s).flatten

/-- The bytes handed to `async_write` so far, in order. -/
def handedBytes (s : Connection κ) : List Byte := (observe postedBytes s).flatten

/-- The key of the first cipher that was installed. -/
def cipherKey (s : Connection κ) : Option (List Byte) := (observe installedKey s).head?

/-- The packets enqueued before a cipher was installed. -/
def enqueuedBeforeCipher (s : Connection κ) : List Packet :=
  (s.trace.takeWhile fun e => (installedKey e).isNone).filterMap enqueuedPacket

/-- The batch writer that a connection is. -/
def writer (s : Connection κ) : BatchWriter Packet Byte (List Byte) κ where
  queue := s.queue
  inFlight := s.socket.pendingWrite.map PendingWrite.batch
  ctx := s.cipher.map AESCipher.encryptCtx
  enqueued := enqueuedPackets s
  handed := handedPackets s
  bytes := handedBytes s
  key := cipherKey s
  before := enqueuedBeforeCipher s

/-- The members that the batch writer does not have agree with it. -/
structure Synced (s : Connection κ) : Prop where
  writing : s.isWriting = s.socket.pendingWrite.isSome
  cleared : s.isWriting = false → s.writeBuffer.data = []
  atStart : s.writeBuffer.readPos = 0

/-! ## The history behind one more effect -/

theorem cipherKey_eq_none_iff {s : Connection κ} :
    cipherKey s = none ↔ ∀ e ∈ s.trace, installedKey e = none := by
  rw [cipherKey, List.head?_eq_none_iff, observe, List.filterMap_eq_nil_iff]

theorem enqueuedBeforeCipher_emit_of_none {s : Connection κ} (h : cipherKey s = none)
    (e : Effect) :
    enqueuedBeforeCipher (emit e s) = enqueuedBeforeCipher s ++ (enqueuedPacket e).toList := by
  have hall : ∀ e ∈ s.trace, (installedKey e).isNone = true := fun e hmem =>
    Option.isNone_iff_eq_none.mpr (cipherKey_eq_none_iff.mp h e hmem)
  rw [enqueuedBeforeCipher, enqueuedBeforeCipher, emit_trace, List.takeWhile_append_of_pos hall,
    List.takeWhile_eq_self_iff.mpr hall, List.filterMap_append]
  cases e <;> rfl

theorem enqueuedBeforeCipher_emit_of_some {s : Connection κ} {key : List Byte}
    (h : cipherKey s = some key) (e : Effect) :
    enqueuedBeforeCipher (emit e s) = enqueuedBeforeCipher s := by
  have hlen : ¬ (s.trace.takeWhile fun e => (installedKey e).isNone).length = s.trace.length := by
    intro hl
    have hall := List.takeWhile_eq_self_iff.mp ((List.takeWhile_prefix _).eq_of_length hl)
    have hnone : cipherKey s = none := cipherKey_eq_none_iff.mpr fun e he =>
      Option.isNone_iff_eq_none.mp (hall e he)
    cases hnone.symm.trans h
  rw [enqueuedBeforeCipher, enqueuedBeforeCipher, emit_trace, List.takeWhile_append, if_neg hlen]

theorem enqueuedBeforeCipher_emit {e : Effect} (he : enqueuedPacket e = none)
    (s : Connection κ) : enqueuedBeforeCipher (emit e s) = enqueuedBeforeCipher s := by
  cases hk : cipherKey s with
  | some key => exact enqueuedBeforeCipher_emit_of_some hk e
  | none => rw [enqueuedBeforeCipher_emit_of_none hk, he, Option.toList_none, List.append_nil]

/-- The effects that the outgoing stream has no part in. -/
def Effect.isSilent : Effect → Bool
  | .enqueued _ | .writePosted .. | .cipherInstalled _ => false
  | _ => true

theorem writer_emit {e : Effect} (he : Effect.isSilent e = true) (s : Connection κ) :
    writer (emit e s) = writer s := by
  have hbefore : enqueuedBeforeCipher (emit e s) = enqueuedBeforeCipher s :=
    enqueuedBeforeCipher_emit (by cases e <;> first | rfl | cases he) s
  refine BatchWriter.ext rfl rfl rfl ?_ ?_ ?_ ?_ hbefore
  · exact observe_emit_none (by cases e <;> first | rfl | cases he) s
  · exact congrArg List.flatten (observe_emit_none (by cases e <;> first | rfl | cases he) s)
  · exact congrArg List.flatten (observe_emit_none (by cases e <;> first | rfl | cases he) s)
  · exact congrArg List.head? (observe_emit_none (by cases e <;> first | rfl | cases he) s)

/-! ## The methods are operations of the batch writer -/

section Refinement

variable (env : Environment κ) {s : Connection κ}

theorem writer_push (p : Packet) (s : Connection κ) :
    writer (pushPacket p s) = BatchWriter.push p (writer s) := by
  have hobs : ∀ {α : Type} {f : Effect → Option α}, f (.enqueued p) = none →
      observe f (pushPacket p s) = observe f s :=
    fun hf => observe_emit_none hf _
  refine BatchWriter.ext rfl rfl rfl ?_ ?_ ?_ ?_ ?_
  · exact observe_emit enqueuedPacket _ _
  · exact congrArg List.flatten (hobs rfl)
  · exact congrArg List.flatten (hobs rfl)
  · exact congrArg List.head? (hobs rfl)
  · cases hk : cipherKey s with
    | none =>
        refine Eq.trans ?_ (BatchWriter.push_before_of_none (w := writer s) hk p).symm
        exact enqueuedBeforeCipher_emit_of_none (s := { s with queue := s.queue ++ [p] }) hk _
    | some key =>
        refine Eq.trans ?_ (BatchWriter.push_before_of_some (w := writer s) hk p).symm
        exact enqueuedBeforeCipher_emit_of_some (s := { s with queue := s.queue ++ [p] }) hk _

theorem drainQueue_writeBuffer (h : Synced s) (hi : s.isWriting = false) :
    (drainQueue env s).writeBuffer.data = outputs env.keypair s.queue ∧
      (drainQueue env s).writeBuffer.readPos = 0 := by
  rw [drainQueue, foldl_writeData]
  simp [Buffer.addDatas, h.cleared hi, h.atStart]

theorem constBuffer_of_atStart {b : Buffer} (h : b.readPos = 0) : b.constBuffer = b.data := by
  rw [Buffer.constBuffer, ReadCursor.rest, h, List.drop_zero]

/-- Encrypting the write buffer is how the batch writer sends a plaintext. -/
theorem encryptWriteBuffer_send (h : s.writeBuffer.readPos = 0) :
    (encryptWriteBuffer env s).writeBuffer.readPos = 0 ∧
      (encryptWriteBuffer env s).writeBuffer.data =
        (BatchWriter.send env.evp (s.cipher.map AESCipher.encryptCtx) s.writeBuffer.data).1 ∧
      (encryptWriteBuffer env s).cipher.map AESCipher.encryptCtx =
        (BatchWriter.send env.evp (s.cipher.map AESCipher.encryptCtx) s.writeBuffer.data).2 := by
  cases hc : s.cipher with
  | none =>
      rw [encryptWriteBuffer_of_none env hc, hc]
      exact ⟨h, rfl, rfl⟩
  | some c =>
      rw [encryptWriteBuffer_of_some env hc]
      exact ⟨h, rfl, rfl⟩

theorem encryptWriteBuffer_frame (s : Connection κ) :
    (encryptWriteBuffer env s).queue = s.queue ∧
      (encryptWriteBuffer env s).isWriting = s.isWriting := by
  cases hc : s.cipher with
  | none =>
      rw [encryptWriteBuffer_of_none env hc]
      exact ⟨rfl, rfl⟩
  | some c =>
      rw [encryptWriteBuffer_of_some env hc]
      exact ⟨rfl, rfl⟩

/-- Starting a write is posting a batch. -/
theorem writer_startWrite (h : Synced s) (hi : s.isWriting = false) :
    writer (startWrite env s) = BatchWriter.post (output env.keypair) env.evp (writer s) ∧
      Synced (startWrite env s) := by
  obtain ⟨hdata, hpos⟩ := drainQueue_writeBuffer env h hi
  obtain ⟨hpos', hsent, hctx⟩ := encryptWriteBuffer_send env hpos
  obtain ⟨hqueue, hwriting⟩ := encryptWriteBuffer_frame env (drainQueue env s)
  have htrace := encryptWriteBuffer_trace env (drainQueue env s)
  have hbytes : (encryptWriteBuffer env (drainQueue env s)).writeBuffer.constBuffer =
      (BatchWriter.send env.evp (s.cipher.map AESCipher.encryptCtx)
        (outputs env.keypair s.queue)).1 := by
    rw [constBuffer_of_atStart hpos', hsent, hdata]
    rfl
  rw [hdata] at hctx
  rw [startWrite_of_idle env hi, postWrite]
  generalize encryptWriteBuffer env (drainQueue env s) = ready at *
  have hobs : ∀ {α : Type} (f : Effect → Option α), observe f ready = observe f s :=
    fun f => congrArg (List.filterMap f) htrace
  constructor
  · refine BatchWriter.ext hqueue rfl hctx ?_ ?_ ?_ ?_ ?_
    · exact (observe_emit_none rfl _).trans (hobs _)
    · have hp := (observe_emit_some (f := postedBatch)
        (e := .writePosted s.queue ready.writeBuffer.constBuffer) rfl _).trans
        (congrArg (· ++ [s.queue]) (hobs postedBatch))
      exact (congrArg List.flatten hp).trans (by simp [BatchWriter.post, writer, handedPackets])
    · have hp := (observe_emit_some (f := postedBytes)
        (e := .writePosted s.queue ready.writeBuffer.constBuffer) rfl _).trans
        (congrArg (· ++ [ready.writeBuffer.constBuffer]) (hobs postedBytes))
      exact (congrArg List.flatten hp).trans (by
        simp [BatchWriter.post, writer, handedBytes, hbytes, outputs])
    · exact congrArg List.head? ((observe_emit_none rfl _).trans (hobs _))
    · apply (enqueuedBeforeCipher_emit rfl _).trans
      simp only [enqueuedBeforeCipher, htrace]
      rfl
  · have hbusy : ready.isWriting = true := hwriting
    exact ⟨hbusy, fun hw => absurd (hbusy.symm.trans hw) (by decide), hpos'⟩

theorem Synced.push (p : Packet) (h : Synced s) :
    Synced (pushPacket p s) :=
  ⟨h.writing, h.cleared, h.atStart⟩

/-- `addPacketToQueue` is the batch writer's `enqueue`. -/
theorem writer_addPacketToQueue (p : Packet) (h : Synced s) :
    writer (addPacketToQueue env p s) =
        BatchWriter.enqueue (output env.keypair) env.evp p (writer s) ∧
      Synced (addPacketToQueue env p s) := by
  have hw := h.writing
  rw [addPacketToQueue_eq]
  by_cases hi : s.isWriting = true
  · obtain ⟨w, hpw⟩ := Option.isSome_iff_exists.mp (hw.symm.trans hi)
    have hbusy : (writer s).inFlight = some w.batch := congrArg (Option.map _) hpw
    have hi' : (pushPacket p s).isWriting = true := hi
    rw [startWrite_of_writing env hi', BatchWriter.enqueue_of_busy _ _ hbusy, writer_push]
    exact ⟨rfl, h.push p⟩
  · have hi' : (pushPacket p s).isWriting = false := Bool.not_eq_true _ ▸ hi
    have hpw : s.socket.pendingWrite = none :=
      Option.isSome_eq_false_iff.mp (hw.symm.trans hi') |> Option.isNone_iff_eq_none.mp
    have hidle : (writer s).inFlight = none := congrArg (Option.map _) hpw
    rw [BatchWriter.enqueue_of_idle _ _ hidle, ← writer_push]
    exact writer_startWrite env (h.push p) hi'

end Refinement

/-! ## The invariant -/

/-- The connection is an intact batch writer. -/
structure Outgoing (env : Environment κ) (s : Connection κ) : Prop where
  synced : Synced s
  intact : BatchWriter.Intact (output env.keypair) env.evp (writer s)

/-- No cipher is installed before PLAY. -/
def Keyless (s : Connection κ) : Prop := s.status ≠ .play → observe installedKey s = []

/-- The batch writer is intact until the socket is closed. -/
def OutgoingWhileOpen (env : Environment κ) (s : Connection κ) : Prop :=
  (s.socket.isOpen = true → Outgoing env s) ∧ Keyless s

section Methods

variable {env : Environment κ} {s t : Connection κ}

/-- What the batch writer of a connection depends on. -/
theorem Outgoing.congr (h : Outgoing env s) (hw : writer t = writer s)
    (hwriting : t.isWriting = s.isWriting) (hbuffer : t.writeBuffer = s.writeBuffer)
    (hpending : t.socket.pendingWrite = s.socket.pendingWrite) : Outgoing env t := by
  refine ⟨⟨?_, ?_, ?_⟩, ?_⟩
  · rw [hwriting, hpending, h.synced.writing]
  · rw [hwriting, hbuffer]
    exact h.synced.cleared
  · rw [hbuffer]
    exact h.synced.atStart
  · rw [hw]
    exact h.intact

theorem Outgoing.addPacketToQueue (p : Packet) (h : Outgoing env s) :
    Outgoing env (addPacketToQueue env p s) := by
  obtain ⟨hw, hsync⟩ := writer_addPacketToQueue env p h.synced
  refine ⟨hsync, ?_⟩
  rw [hw]
  exact h.intact.enqueue p

theorem Outgoing.emit {e : Effect} (he : Effect.isSilent e = true) (h : Outgoing env s) :
    Outgoing env (emit e s) :=
  h.congr (writer_emit he s) rfl rfl rfl

theorem writer_usePlayer (f : Player → Player) (s : Connection κ) :
    writer (usePlayer f s) = writer s := by
  unfold usePlayer
  cases s.player with
  | none => rfl
  | some player => exact writer_emit rfl _

theorem Outgoing.usePlayer (f : Player → Player) (h : Outgoing env s) :
    Outgoing env (usePlayer f s) :=
  h.congr (writer_usePlayer f s) (usePlayer_isWriting f s) (usePlayer_writeBuffer f s)
    (by rw [usePlayer_socket])

theorem Outgoing.disconnectWith (reason : UTF16String) (h : Outgoing env s) :
    Outgoing env (disconnectWith env reason s) :=
  disconnectWith_keeps reason Outgoing.addPacketToQueue Outgoing.usePlayer
    (fun h => h.congr rfl rfl rfl rfl) (fun h => h.congr rfl rfl rfl rfl) (h.emit rfl)

theorem Outgoing.disconnect (h : Outgoing env s) : Outgoing env (disconnect s) :=
  h.congr (writer_emit rfl _) rfl rfl rfl

/-- The cipher is the first one of this connection. -/
theorem Outgoing.install (key : List Byte) (hk : observe installedKey s = [])
    (h : Outgoing env s) : Outgoing env (Connection.emit (.cipherInstalled key)
      { s with cipher := some (cipherOf env key) }) := by
  have hw : writer (Connection.emit (.cipherInstalled key)
      { s with cipher := some (cipherOf env key) }) =
        BatchWriter.install env.evp key (writer s) := by
    refine BatchWriter.ext rfl rfl rfl ?_ ?_ ?_ ?_ ?_
    · exact observe_emit_none rfl _
    · exact congrArg List.flatten (observe_emit_none rfl _)
    · exact congrArg List.flatten (observe_emit_none rfl _)
    · exact congrArg List.head? ((observe_emit_some (f := installedKey) (e := .cipherInstalled key)
        rfl _).trans (congrArg (· ++ [key]) hk))
    · exact enqueuedBeforeCipher_emit rfl _
  refine ⟨⟨h.synced.writing, h.synced.cleared, h.synced.atStart⟩, ?_⟩
  rw [hw]
  exact h.intact.install key (List.head?_eq_none_iff.mpr hk)

/-- A write that completes and leaves the socket open leaves the write buffer empty. -/
theorem Outgoing.writeCompleted {w : PendingWrite} (h : Outgoing env s)
    (hc : ¬ ClosesOnWrite w.bytes.length (completeWrite w s)) :
    Outgoing env (handleWrite false w.bytes.length (completeWrite w s)) := by
  rw [handleWrite_of_not_closes hc]
  have hw : writer { completeWrite w s with
      isWriting := false
      writeBuffer := (completeWrite w s).writeBuffer.clearBuffer } =
        BatchWriter.complete (writer s) :=
    writer_emit (e := .writeCompleted w.batch) rfl
      { s with socket := { s.socket with pendingWrite := none } }
  refine ⟨⟨rfl, fun _ => rfl, rfl⟩, ?_⟩
  rw [hw]
  exact h.intact.complete

end Methods

section Keyless

variable {env : Environment κ} {s t : Connection κ}

theorem Keyless.congr (h : Keyless s) (hst : t.status = s.status ∨ s.status ≠ .play)
    (hobs : observe installedKey t = observe installedKey s) : Keyless t := by
  intro ht
  rw [hobs]
  rcases hst with hst | hst
  · exact h (hst ▸ ht)
  · exact h hst

theorem Keyless.emit {e : Effect} (he : installedKey e = none) (h : Keyless s) :
    Keyless (emit e s) :=
  h.congr (.inl rfl) (observe_emit_none he s)

theorem Keyless.disconnectWith (reason : UTF16String) (h : Keyless s) :
    Keyless (disconnectWith env reason s) := by
  apply h.congr (.inl (disconnectWith_status ..))
  simp [observe_disconnectWith env reason s (f := installedKey) (fun _ _ => rfl) rfl, installedKey]

theorem Keyless.addPacketToQueue (p : Packet) (h : Keyless s) :
    Keyless (addPacketToQueue env p s) := by
  apply h.congr (.inl (addPacketToQueue_status ..))
  simp [observe_addPacketToQueue env p s (f := installedKey) fun _ _ => rfl, installedKey]

theorem Keyless.usePlayer (f : Player → Player) (h : Keyless s) : Keyless (usePlayer f s) :=
  h.congr (.inl (usePlayer_status f s)) (observe_usePlayer f s rfl)

theorem Keyless.versionChecked (p : ClientProtocolPacket) (h : Keyless s) :
    Keyless (versionChecked env p s) :=
  versionChecked_keeps Keyless.usePlayer (fun _ _ => h.disconnectWith _) h

theorem Keyless.handleWrite (failed : Bool) (size : Nat) (h : Keyless s) :
    Keyless (handleWrite failed size s) :=
  h.congr (.inl (handleWrite_status ..)) (observe_handleWrite (f := installedKey) rfl rfl ..)

end Keyless

/-! ## Handlers and steps -/

section Handlers

variable {env : Environment κ} {s t : Connection κ}

theorem Outgoing.versionChecked (p : ClientProtocolPacket) (h : Outgoing env s) :
    Outgoing env (versionChecked env p s) :=
  versionChecked_keeps Outgoing.usePlayer (fun _ _ => h.disconnectWith _) h

theorem Outgoing.pinged (p : ServerPingPacket) (h : Outgoing env s) :
    Outgoing env (pinged env p s) := by
  have hk := h.addPacketToQueue (.kick ⟨serializeServerInfo (literal ['1', '.', '4', '.', '7'])
    (literal ("A server running Carpet SRV".toList)) 0 20⟩)
  exact Outgoing.emit rfl (hk.congr rfl rfl rfl rfl)

theorem Outgoing.greeted (token : Vector Byte 4) (p : ClientProtocolPacket)
    (h : Outgoing env s) : Outgoing env (greeted env token p s) := by
  have hv : Outgoing env { Connection.versionChecked env p s with verifyToken := token.toList } :=
    (h.versionChecked p).congr rfl rfl rfl rfl
  exact Outgoing.emit rfl ((hv.addPacketToQueue _).congr rfl rfl rfl rfl)

theorem Outgoing.tokenChecked (p : SharedKeyPacket) (h : Outgoing env s) :
    Outgoing env (tokenChecked p s) :=
  tokenChecked_keeps (fun _ => h.disconnect) h

theorem Outgoing.loggedIn (p : SharedKeyPacket) (hk : observe installedKey s = [])
    (h : Outgoing env s) : Outgoing env (loggedIn env (cipherOf env p.sharedSecret) p s) := by
  have hk' : observe installedKey (Connection.tokenChecked p s) = [] :=
    (observe_tokenChecked s rfl p).trans hk
  have hinst := (h.tokenChecked p).install p.sharedSecret hk'
  have hqueued := ((hinst.addPacketToQueue (.login {})).addPacketToQueue
    (.spawnPoint ⟨0, 0, 0⟩)).addPacketToQueue (.playerPosition {})
  exact Outgoing.emit rfl (hqueued.congr rfl rfl rfl rfl)

end Handlers

theorem isSilent_of_isReading {e : Effect} (h : e.isReading = true) :
    Effect.isSilent e = true := by
  cases e <;> first | rfl | cases h

theorem installedKey_of_isReading {e : Effect} (h : e.isReading = true) :
    installedKey e = none := by
  cases e <;> first | rfl | cases h

theorem keyless_readClosed (env : Environment κ) : ReadClosed env AnyPacket Keyless where
  readBuffer _ h := h
  pendingRead _ h := h
  decryptCtx _ _ h := h
  emit he h := h.emit (installedKey_of_isReading he)
  pinged hst _ h := h.congr (.inr (by rw [hst]; decide)) (by
    simp [observe_pinged env _ (f := installedKey) fun _ _ => rfl, installedKey])
  unseeded _ _ _ h := h.versionChecked _
  greeted {_ p s _} hst _ _ h := by
    have hv : Keyless (versionChecked env p s) := h.versionChecked p
    refine hv.congr (.inr ?_) ?_
    · rw [versionChecked_status, hst]
      decide
    · simp [observe_greeted env s (f := installedKey) fun _ _ => rfl, installedKey]
  badKey _ _ _ h := h.congr (.inl (tokenChecked_status ..)) (observe_tokenChecked _ rfl _)
  loggedIn _ _ _ _ := fun hst => absurd rfl hst
  informed _ h := (h.usePlayer _).emit rfl
  keptAlive _ h := Keyless.emit rfl h
  positioned _ h := (h.usePlayer _).emit rfl

theorem outgoing_readClosed (env : Environment κ) :
    ReadClosed env AnyPacket (OutgoingWhileOpen env) where
  readBuffer _ h := ⟨fun ho => (h.1 ho).congr rfl rfl rfl rfl, h.2⟩
  pendingRead _ h := ⟨fun ho => (h.1 ho).congr rfl rfl rfl rfl, h.2⟩
  decryptCtx {s c} k hc h := by
    refine ⟨fun ho => (h.1 ho).congr ?_ rfl rfl rfl, h.2⟩
    have hctx : (some { c with decryptCtx := k }).map AESCipher.encryptCtx =
        s.cipher.map AESCipher.encryptCtx := by rw [hc]; rfl
    exact BatchWriter.ext rfl rfl hctx rfl rfl rfl rfl rfl
  emit he h := ⟨fun ho => (h.1 ho).emit (isSilent_of_isReading he),
    h.2.emit (installedKey_of_isReading he)⟩
  pinged hst hq h := ⟨fun ho => (h.1 (by simpa [pinged] using ho)).pinged _,
    (keyless_readClosed env).pinged hst hq h.2⟩
  unseeded _ _ _ h := ⟨fun ho => (h.1 (by simpa using ho)).versionChecked _,
    h.2.versionChecked _⟩
  greeted hst hq hrand h := ⟨fun ho => (h.1 (by simpa [greeted] using ho)).greeted _ _,
    (keyless_readClosed env).greeted hst hq hrand h.2⟩
  badKey hst hq hlen h := ⟨fun ho => (h.1 (by simpa using ho)).tokenChecked _,
    (keyless_readClosed env).badKey hst hq hlen h.2⟩
  loggedIn hst _ _ h := ⟨fun ho => (h.1 (by simpa [loggedIn] using ho)).loggedIn _
    (h.2 (by rw [hst]; decide)), fun hst => absurd rfl hst⟩
  informed hq h := ⟨fun ho => ((h.1 (by simpa [informed] using ho)).usePlayer _).emit rfl,
    (keyless_readClosed env).informed hq h.2⟩
  keptAlive hq h := ⟨fun ho => Outgoing.emit rfl ((h.1 ho).congr rfl rfl rfl rfl),
    (keyless_readClosed env).keptAlive hq h.2⟩
  positioned hq h := ⟨fun ho => ((h.1 (by simpa [positioned] using ho)).usePlayer _).emit rfl,
    (keyless_readClosed env).positioned hq h.2⟩

theorem OutgoingWhileOpen.step {env : Environment κ} {s t : Connection κ} {e : ConnectionEvent}
    (hok : Succeeds e) (hstep : step env s e = some t) (h : OutgoingWhileOpen env s) :
    OutgoingWhileOpen env t := by
  cases step_cases hstep with
  | handleConnection _ _ =>
      apply (outgoing_readClosed env).startRead
      exact ⟨fun ho => (h.1 ho).congr rfl rfl rfl rfl, h.2⟩
  | readCompleted _ _ =>
      exact (outgoing_readClosed env).readCompleted (eachRead_anyPacket env s _) h
  | readFailed _ => exact (outgoing_readClosed env).pendingRead false h
  | @writeCompleted w hw ho =>
      refine ⟨fun hopen => ?_, Keyless.handleWrite _ _ (h.2.emit rfl)⟩
      exact (h.1 ho).writeCompleted (isOpen_handleWrite_iff.mp hopen).2
  | writeFailed _ => exact hok.elim
  | sendKeepAlive =>
      apply sendKeepAlive_keeps
      · intro reason
        exact ⟨fun ho => (h.1 (by simpa using ho)).disconnectWith _, h.2.disconnectWith _⟩
      · exact ⟨fun ho => (h.1 ho).disconnect, h.2.emit rfl⟩
      · exact h
  | kickPlayer => exact ⟨fun ho => (h.1 (by simpa using ho)).disconnectWith _, h.2.disconnectWith _⟩
  | addPacketToQueue =>
      exact ⟨fun ho => (h.1 (by simpa using ho)).addPacketToQueue _, h.2.addPacketToQueue _⟩

theorem OutgoingWhileOpen.of_create (env : Environment κ) (now : Int) :
    OutgoingWhileOpen env (create now) :=
  ⟨fun _ => ⟨⟨rfl, fun _ => rfl, rfl⟩, BatchWriter.intact_empty _ _⟩, fun _ => rfl⟩

/-! ## What is enqueued behind the cipher -/

inductive StreamEvent
  | queued (p : Packet)
  | installed (key : List Byte)

namespace StreamEvent

def ofEffect : Effect → Option StreamEvent
  | .enqueued p => some (.queued p)
  | .cipherInstalled key => some (.installed key)
  | _ => none

def packet : StreamEvent → Option Packet
  | .queued p => some p
  | .installed _ => none

end StreamEvent

/-- What `handleSharedKeyPacket` enqueues when it has installed the cipher. -/
def loginAnswers : List Packet := [.login {}, .spawnPoint ⟨0, 0, 0⟩, .playerPosition {}]

/-- Packets only, or packets on both sides of one cipher. -/
inductive LoginOrder : List StreamEvent → Prop
  | keyless (before : List Packet) : LoginOrder (before.map .queued)
  | keyed (before later : List Packet) (key : List Byte) :
      LoginOrder (before.map .queued ++ .installed key :: (loginAnswers ++ later).map .queued)

/-- The order in which packets have been queued and a cipher installed. -/
structure AnswersBehindCipher (s : Connection κ) : Prop where
  order : LoginOrder (observe StreamEvent.ofEffect s)
  keyless : s.status ≠ .play → ∃ before : List Packet,
    observe StreamEvent.ofEffect s = before.map .queued

theorem LoginOrder.append {es : List StreamEvent} (h : LoginOrder es) (ps : List Packet) :
    LoginOrder (es ++ ps.map .queued) := by
  cases h with
  | keyless before =>
      rw [← List.map_append]
      exact .keyless _
  | keyed before later key =>
      rw [List.append_assoc, List.cons_append, ← List.map_append, List.append_assoc]
      exact .keyed _ _ key

/-- The packets in front of the first cipher. -/
theorem enqueuedBeforeCipher_eq (s : Connection κ) : enqueuedBeforeCipher s =
    ((observe StreamEvent.ofEffect s).takeWhile (·.packet.isSome)).filterMap
      StreamEvent.packet := by
  rw [enqueuedBeforeCipher, observe]
  induction s.trace with
  | nil => rfl
  | cons e es ih =>
      cases e with
      | enqueued p => exact congrArg (p :: ·) ih
      | cipherInstalled key => rfl
      | _ => exact ih

theorem filterMap_packet_queued (ps : List Packet) :
    (ps.map StreamEvent.queued).filterMap StreamEvent.packet = ps := by
  rw [List.filterMap_map]
  exact List.filterMap_some

theorem takeWhile_packet_queued (ps : List Packet) (es : List StreamEvent) :
    (ps.map StreamEvent.queued ++ es).takeWhile (·.packet.isSome) =
      ps.map StreamEvent.queued ++ es.takeWhile (·.packet.isSome) := by
  apply List.takeWhile_append_of_pos
  simp [StreamEvent.packet]

/-- The answers of the shared-key handler are the first packets behind the cipher. -/
theorem AnswersBehindCipher.answers_first {s : Connection κ} (h : AnswersBehindCipher s)
    (hkey : cipherKey s ≠ none) :
    enqueuedBeforeCipher s ++ loginAnswers <+: enqueuedPackets s := by
  have hpackets : enqueuedPackets s =
      (observe StreamEvent.ofEffect s).filterMap StreamEvent.packet := by
    rw [observe, List.filterMap_filterMap]
    apply List.filterMap_congr
    intro e _
    cases e <;> rfl
  rw [enqueuedBeforeCipher_eq, hpackets]
  have horder := h.order
  generalize hes : observe StreamEvent.ofEffect s = es at horder
  cases horder with
  | keyless before =>
      refine absurd (cipherKey_eq_none_iff.mpr fun e he => ?_) hkey
      cases e with
      | cipherInstalled key =>
          have hmem : StreamEvent.installed key ∈ before.map StreamEvent.queued := by
            rw [← hes]
            exact mem_observe.mpr ⟨_, he, rfl⟩
          simp at hmem
      | _ => rfl
  | keyed before later key =>
      have hbehind : (StreamEvent.installed key :: (loginAnswers ++ later).map
          StreamEvent.queued).filterMap StreamEvent.packet = loginAnswers ++ later :=
        filterMap_packet_queued _
      rw [takeWhile_packet_queued, List.takeWhile_cons_of_neg Bool.false_ne_true,
        List.append_nil, List.filterMap_append, filterMap_packet_queued, hbehind,
        ← List.append_assoc]
      exact List.prefix_append _ _

section AnswersBehindCipher

variable {env : Environment κ} {s t : Connection κ}

theorem AnswersBehindCipher.congr (h : AnswersBehindCipher s) (ps : List Packet)
    (hst : t.status = s.status ∨ s.status ≠ .play)
    (hobs : observe StreamEvent.ofEffect t =
      observe StreamEvent.ofEffect s ++ ps.map .queued) : AnswersBehindCipher t := by
  refine ⟨hobs ▸ h.order.append ps, fun ht => ?_⟩
  obtain ⟨before, hbefore⟩ := h.keyless (by
    rcases hst with hst | hst
    · exact hst ▸ ht
    · exact hst)
  exact ⟨before ++ ps, by rw [hobs, hbefore, List.map_append]⟩

theorem AnswersBehindCipher.of_same (h : AnswersBehindCipher s)
    (hst : t.status = s.status ∨ s.status ≠ .play)
    (hobs : observe StreamEvent.ofEffect t = observe StreamEvent.ofEffect s) :
    AnswersBehindCipher t :=
  h.congr [] hst (hobs.trans (List.append_nil _).symm)

theorem AnswersBehindCipher.usePlayer (f : Player → Player) (h : AnswersBehindCipher s) :
    AnswersBehindCipher (usePlayer f s) :=
  h.of_same (.inl (usePlayer_status f s)) (observe_usePlayer f s rfl)

theorem AnswersBehindCipher.emit {e : Effect} (he : StreamEvent.ofEffect e = none)
    (h : AnswersBehindCipher s) : AnswersBehindCipher (emit e s) :=
  h.of_same (.inl rfl) (observe_emit_none he s)

theorem AnswersBehindCipher.disconnectWith (reason : UTF16String) (h : AnswersBehindCipher s) :
    AnswersBehindCipher (disconnectWith env reason s) := by
  apply h.congr [.kick ⟨reason⟩] (.inl (disconnectWith_status ..))
  rw [observe_disconnectWith env reason s (fun _ _ => rfl) rfl]
  simp [StreamEvent.ofEffect]

theorem AnswersBehindCipher.addPacketToQueue (p : Packet) (h : AnswersBehindCipher s) :
    AnswersBehindCipher (addPacketToQueue env p s) := by
  apply h.congr [p] (.inl (addPacketToQueue_status ..))
  rw [observe_addPacketToQueue env p s fun _ _ => rfl]
  rfl

theorem AnswersBehindCipher.versionChecked (p : ClientProtocolPacket)
    (h : AnswersBehindCipher s) : AnswersBehindCipher (versionChecked env p s) :=
  versionChecked_keeps AnswersBehindCipher.usePlayer (fun _ _ => h.disconnectWith _) h

theorem AnswersBehindCipher.greeted (token : Vector Byte 4) (p : ClientProtocolPacket)
    (hst : s.status = .handshake) (h : AnswersBehindCipher s) :
    AnswersBehindCipher (greeted env token p s) := by
  have hv : AnswersBehindCipher (Connection.versionChecked env p s) := h.versionChecked p
  apply hv.congr [.serverAuthData ⟨token.toList⟩]
  · right
    rw [versionChecked_status, hst]
    decide
  · rw [observe_greeted env s (fun _ _ => rfl), List.append_assoc]
    rfl

theorem AnswersBehindCipher.loggedIn (cipher : AESCipher κ) (p : SharedKeyPacket)
    (hst : s.status = .login) (h : AnswersBehindCipher s) :
    AnswersBehindCipher (loggedIn env cipher p s) := by
  obtain ⟨before, hbefore⟩ := h.keyless (by rw [hst]; decide)
  have hobs := observe_loggedIn env s (f := StreamEvent.ofEffect) (fun _ _ => rfl) cipher p
  rw [observe_tokenChecked s rfl, hbefore] at hobs
  refine ⟨?_, fun hplay => absurd rfl hplay⟩
  have hkeyed := LoginOrder.keyed before [] p.sharedSecret
  rw [List.append_nil] at hkeyed
  rw [hobs]
  simpa [loginAnswers, StreamEvent.ofEffect] using hkeyed

end AnswersBehindCipher

theorem answersBehindCipher_runClosed (env : Environment κ) :
    RunClosed env AnyPacket AnswersBehindCipher where
  readBuffer _ h := h.of_same (.inl rfl) rfl
  pendingRead _ h := h.of_same (.inl rfl) rfl
  decryptCtx _ _ h := h.of_same (.inl rfl) rfl
  emit {_ e} he h := h.emit (by cases e <;> first | rfl | cases he)
  pinged hst _ h := h.congr [_] (.inr (by rw [hst]; decide))
    ((observe_pinged env _ (fun _ _ => rfl) _).trans (List.append_nil _))
  unseeded _ _ _ h := h.versionChecked _
  greeted hst _ _ h := h.greeted _ _ hst
  badKey _ _ _ h := h.of_same (.inl (tokenChecked_status ..)) (observe_tokenChecked _ rfl _)
  loggedIn hst _ _ h := h.loggedIn _ _ hst
  informed _ h := (h.usePlayer _).emit rfl
  keptAlive _ h := h.of_same (.inl rfl) (observe_emit_none rfl _)
  positioned _ h := (h.usePlayer _).emit rfl
  attach _ _ h := h.of_same (.inl rfl) rfl
  completeWrite _ h := h.of_same (.inl rfl) (observe_emit_none rfl _)
  abandonWrite h := h.of_same (.inl rfl) rfl
  handleWrite _ _ h := h.of_same (.inl (handleWrite_status ..)) (observe_handleWrite rfl rfl ..)
  disconnect h := h.of_same (.inl rfl) (observe_emit_none rfl _)
  disconnectWith _ h := h.disconnectWith _

/-! ## The stream -/

/-- Until the socket is closed, the packets handed to asio and the queue are
the packets enqueued, and the bytes are the outputs of the handed packets: in
the open up to a packet enqueued before the cipher, encrypted from there on.
What the shared-key handler answers comes right behind the cipher. -/
theorem outgoing_stream_intact {env : Environment κ} {now : Int} {es : List ConnectionEvent}
    {s : Connection κ} (run : GuardedRun (step env) (fun _ e => Succeeds e) (create now) es s)
    (hopen : s.socket.isOpen = true) :
    handedPackets s ++ s.queue = enqueuedPackets s ∧
      ∃ plain secret, handedPackets s = plain ++ secret ∧
        handedBytes s = outputs env.keypair plain ++
          BatchWriter.sealed env.evp (cipherKey s) (outputs env.keypair secret) ∧
        plain <+: enqueuedBeforeCipher s ∧ (cipherKey s = none → secret = []) ∧
        (cipherKey s ≠ none →
          enqueuedBeforeCipher s ++ loginAnswers <+: enqueuedPackets s) := by
  have hinv : OutgoingWhileOpen env s :=
    run.invariant (fun _ _ _ hok hstep h => OutgoingWhileOpen.step hok hstep h) (.of_create env now)
  have hbehind : AnswersBehindCipher s := by
    refine run.invariant (fun s e t _ hstep h => ?_) ⟨.keyless [], fun _ => ⟨[], rfl⟩⟩
    refine (answersBehindCipher_runClosed env).step (eachRead_anyPacket env s e) ?_ hstep h
    exact fun packet _ => h.addPacketToQueue packet
  have hintact := (hinv.1 hopen).intact
  obtain ⟨plain, secret, hs⟩ := hintact.splits
  exact ⟨hintact.fifo, plain, secret, hs.handed, hs.bytes, hs.before, hs.open_of_no_key,
    hbehind.answers_first⟩

/-- The events of a login whose first write completes, and of one more packet
that sends the rest. -/
def loginWriteEvents : List ConnectionEvent :=
  loginEvents 51 [1, 2, 3, 4] ++ [.writeCompleted, .addPacketToQueue (.keepAlive ⟨7⟩)]

/-- The answers of the login are encrypted. -/
theorem outgoing_stream_intact_login : ∃ s : Connection Byte,
    GuardedRun (step chainEnvironment) (fun _ e => Succeeds e) (create 0) loginWriteEvents s ∧
      s.socket.isOpen = true ∧
      handedPackets s ++ s.queue = enqueuedPackets s ∧
      ∃ plain secret, handedPackets s = plain ++ secret ∧
        handedBytes s = outputs chainEnvironment.keypair plain ++
          BatchWriter.sealed chainEnvironment.evp (cipherKey s)
            (outputs chainEnvironment.keypair secret) ∧
        plain <+: enqueuedBeforeCipher s ∧ loginAnswers ++ [.keepAlive ⟨7⟩] <:+ secret := by
  obtain ⟨s, hrun, hopen, hbefore, hhanded⟩ := exists_guardedRun
      (step chainEnvironment) (fun _ e => Succeeds e) (create 0) loginWriteEvents
      (fun s => s.socket.isOpen = true ∧
        enqueuedBeforeCipher s = [.serverAuthData ⟨[1, 2, 3, 4]⟩] ∧
        handedPackets s = [.serverAuthData ⟨[1, 2, 3, 4]⟩] ++
          (loginAnswers ++ [.keepAlive ⟨7⟩])) (by decide +kernel)
  obtain ⟨hfifo, plain, secret, hsplit, hbytes, hplain, _⟩ := outgoing_stream_intact hrun hopen
  refine ⟨s, hrun, hopen, hfifo, plain, secret, hsplit, hbytes, hplain, ?_⟩
  have hlen := hplain.length_le
  have htotal := congrArg List.length (hhanded.symm.trans hsplit)
  rw [hbefore] at hlen
  simp only [List.length_append, List.length_singleton] at hlen htotal
  have hanswers : loginAnswers ++ [.keepAlive ⟨7⟩] <:+ handedPackets s := ⟨_, hhanded.symm⟩
  have hsecret : secret <:+ handedPackets s := ⟨_, hsplit.symm⟩
  apply List.suffix_of_suffix_length_le hanswers hsecret
  rw [List.length_append, List.length_singleton]
  omega

end CarpetSrv.Network.Connection
