import CarpetSrv.Network.RunInvariant
import Mathlib.Data.List.Sublists

/-!
# Disconnecting

The socket is closed by the completion of a write and nowhere else.
`disconnect()` starts no write, so an idle connection stays open behind it.
`disconnect(reason)` queues its kick packet, which a write in flight does not
carry, and the completion of that write closes the socket. Both work when they
are called at the right time.

## Implementation notes

A kick is identified by its place in the history: it is queued, posted and
completed behind the call of `disconnect(reason)` that made it.
-/

namespace CarpetSrv.Network.Connection

open Foundation Foundation.ExceptState Packet Utils

variable {κ : Type}

/-! ## When a connection may be disconnected -/

/-- A wrong version disconnects with a reason. A wrong token with a bad secret
disconnects without one and queues nothing. -/
def DisconnectsInTime (_ : Ambient) : HandledPacket → Connection κ → Prop
  | .clientProtocol p, s => s.socket.isOpen = true → p.protocolVersion ≠ 51 →
      s.isWriting = false
  | .sharedKey p, s => s.socket.isOpen = true → p.sharedSecret.length ≠ 16 →
      s.verifyToken ≠ p.verifyToken → s.isWriting = true
  | _, _ => True

instance (ambient : Ambient) : ∀ (p : HandledPacket) (s : Connection κ),
    Decidable (DisconnectsInTime ambient p s)
  | .clientProtocol p, s => inferInstanceAs (Decidable (s.socket.isOpen = true →
      p.protocolVersion ≠ 51 → s.isWriting = false))
  | .sharedKey p, s => inferInstanceAs (Decidable (s.socket.isOpen = true →
      p.sharedSecret.length ≠ 16 → s.verifyToken ≠ p.verifyToken → s.isWriting = true))
  | .serverPing _, _ | .clientInfo _, _ | .keepAlive, _ | .playerPosition _, _ => .isTrue trivial

/-- On an open socket `disconnect(reason)` is called between two writes and
`disconnect()` during one. No write fails. -/
def Punctual (env : Environment κ) (s : Connection κ) : ConnectionEvent → Prop
  | .readCompleted bytes ambient => EachRead DisconnectsInTime env s (.readCompleted bytes ambient)
  | .kickPlayer _ => s.socket.isOpen = true → s.isWriting = false
  | .sendKeepAlive now => s.socket.isOpen = true → now - s.lastActivity > 20 →
      (s.isWriting = true ↔ s.status ≠ .play)
  | .writeFailed _ => False
  | _ => True

instance (env : Environment κ) (s : Connection κ) : ∀ e : ConnectionEvent,
    Decidable (Punctual env s e)
  | .readCompleted bytes ambient =>
      inferInstanceAs (Decidable (EachRead DisconnectsInTime env s (.readCompleted bytes ambient)))
  | .kickPlayer _ => inferInstanceAs (Decidable (s.socket.isOpen = true → s.isWriting = false))
  | .sendKeepAlive now => inferInstanceAs (Decidable (s.socket.isOpen = true →
      now - s.lastActivity > 20 → (s.isWriting = true ↔ s.status ≠ .play)))
  | .writeFailed _ => .isFalse id
  | .handleConnection _ | .readFailed | .writeCompleted | .addPacketToQueue _ => .isTrue trivial

def disconnectReason : Effect → Option UTF16String
  | .disconnected reason => reason
  | _ => none

/-- Behind a `disconnect(reason)` its kick packet was queued, posted in a
batch, and that batch completed. -/
def KickCompletes (reason : UTF16String) (history : List Effect) : Prop :=
  ∃ batch bytes, .kick ⟨reason⟩ ∈ batch ∧
    [.enqueued (.kick ⟨reason⟩), .writePosted batch bytes, .writeCompleted batch].Sublist history

/-- The kick packet of every `disconnect(reason)` so far was part of a completed write. -/
def KicksCompleted (s : Connection κ) : Prop :=
  ∀ before reason behind, s.trace = before ++ .disconnected (some reason) :: behind →
    KickCompletes reason behind

/-! ## The invariant -/

/-- The kick packet of every `disconnect(reason)` so far is in the write in flight. -/
structure KicksUnderway (s : Connection κ) : Prop where
  paired : s.isWriting = s.socket.pendingWrite.isSome
  underway : ∀ before reason behind, s.trace = before ++ .disconnected (some reason) :: behind →
    ∃ w, s.socket.pendingWrite = some w ∧ .kick ⟨reason⟩ ∈ w.batch ∧
      [.enqueued (.kick ⟨reason⟩), .writePosted w.batch w.bytes].Sublist behind

/-- A connection that is to be closed has a write in flight, and one that is
not has never called `disconnect(reason)`. -/
structure Closing (s : Connection κ) : Prop where
  kicks : KicksUnderway s
  bound : s.mustDisconnect = true → s.isWriting = true
  uncalled : s.mustDisconnect = false → observe disconnectReason s = []

def ClosingWhileOpen (s : Connection κ) : Prop := s.socket.isOpen = true → Closing s

/-- The effects are no calls of `disconnect(reason)`. -/
def Quiet (effects : List Effect) : Prop := effects.filterMap disconnectReason = []

theorem Quiet.not_mem {effects : List Effect} (h : Quiet effects) (reason : UTF16String) :
    .disconnected (some reason) ∉ effects := by
  intro hmem
  have hnone := List.filterMap_eq_nil_iff.mp h _ hmem
  cases hnone

/-- A call in a history that grew by other effects is in the old part. -/
theorem split_of_quiet {old new before behind : List Effect} {reason : UTF16String}
    (hq : Quiet new) (h : old ++ new = before ++ .disconnected (some reason) :: behind) :
    ∃ middle, old = before ++ .disconnected (some reason) :: middle ∧ behind = middle ++ new := by
  rcases List.append_eq_append_iff.mp h with ⟨as, _, hnew⟩ | ⟨bs, hold, hbs⟩
  · refine absurd ?_ (hq.not_mem reason)
    rw [hnew]
    simp
  · cases bs with
    | nil =>
        refine absurd ?_ (hq.not_mem reason)
        rw [List.nil_append] at hbs
        rw [← hbs]
        exact List.mem_cons_self
    | cons b bs =>
        rw [List.cons_append, List.cons.injEq] at hbs
        rw [hbs.1]
        exact ⟨bs, hold, hbs.2⟩

/-- A call in a history that grew by one call is the new one or in the old part. -/
theorem split_of_call {old before behind : List Effect} {reason r : UTF16String}
    (h : old ++ [.disconnected (some reason)] = before ++ .disconnected (some r) :: behind) :
    (r = reason ∧ behind = []) ∨ ∃ middle, old = before ++ .disconnected (some r) :: middle := by
  rcases List.eq_nil_or_concat behind with rfl | ⟨middle, last, rfl⟩
  · obtain ⟨_, hcall⟩ := List.append_inj' h rfl
    cases hcall
    exact .inl ⟨rfl, rfl⟩
  · have hassoc : before ++ .disconnected (some r) :: middle.concat last =
        (before ++ .disconnected (some r) :: middle) ++ [last] := by simp
    rw [hassoc] at h
    exact .inr ⟨middle, (List.append_inj' h rfl).1⟩

section Methods

variable {env : Environment κ} {s t : Connection κ}

theorem KicksUnderway.extend {effects : List Effect} (h : KicksUnderway s)
    (ht : t.trace = s.trace ++ effects) (hq : Quiet effects)
    (hpaired : t.isWriting = t.socket.pendingWrite.isSome)
    (hp : ∀ w, s.socket.pendingWrite = some w → t.socket.pendingWrite = some w) :
    KicksUnderway t := by
  refine ⟨hpaired, ?_⟩
  intro before reason behind hsplit
  rw [ht] at hsplit
  obtain ⟨middle, hold, rfl⟩ := split_of_quiet hq hsplit
  obtain ⟨w, hw, hmem, hsub⟩ := h.underway _ _ _ hold
  exact ⟨w, hp w hw, hmem, hsub.trans (List.sublist_append_left _ _)⟩

theorem KicksUnderway.frame (effects : List Effect) (h : KicksUnderway s)
    (ht : t.trace = s.trace ++ effects) (hq : Quiet effects) (hw : t.isWriting = s.isWriting)
    (hp : t.socket.pendingWrite = s.socket.pendingWrite) : KicksUnderway t := by
  refine h.extend ht hq ?_ fun w hs => hp.trans hs
  rw [hw, hp, h.paired]

theorem KicksUnderway.congr (h : KicksUnderway s) (ht : t.trace = s.trace)
    (hw : t.isWriting = s.isWriting) (hp : t.socket.pendingWrite = s.socket.pendingWrite) :
    KicksUnderway t :=
  h.frame [] (ht.trans (List.append_nil _).symm) rfl hw hp

theorem KicksUnderway.pendingWrite_of_idle (h : KicksUnderway s) (hi : s.isWriting = false) :
    s.socket.pendingWrite = none :=
  Option.isNone_iff_eq_none.mp (Option.isSome_eq_false_iff.mp (h.paired.symm.trans hi))

theorem KicksUnderway.addPacketToQueue (p : Packet) (h : KicksUnderway s) :
    KicksUnderway (addPacketToQueue env p s) := by
  by_cases hw : s.isWriting = true
  · rw [addPacketToQueue_of_busy env hw]
    exact h.frame [.enqueued p] rfl rfl rfl rfl
  · have hi := Bool.eq_false_iff.mpr hw
    obtain ⟨bytes, htrace, hp⟩ := addPacketToQueue_of_idle env hi p
    refine h.extend htrace rfl ?_ fun w hs => ?_
    · rw [hp, addPacketToQueue_isWriting]
      rfl
    · cases (h.pendingWrite_of_idle hi).symm.trans hs

theorem KicksUnderway.usePlayer (f : Player → Player) (h : KicksUnderway s) :
    KicksUnderway (usePlayer f s) := by
  refine h.frame (s.player.map fun _ => Effect.playerUsed).toList ?_ ?_ ?_ ?_
  · rw [usePlayer_eq]
  · cases s.player <;> rfl
  · exact usePlayer_isWriting f s
  · rw [usePlayer_socket]

/-- Between two writes the kick goes out at once. -/
theorem KicksUnderway.disconnectWith (reason : UTF16String) (hi : s.isWriting = false)
    (h : KicksUnderway s) : KicksUnderway (disconnectWith env reason s) := by
  have hi' : (emit (.disconnected (some reason)) s).isWriting = false := hi
  obtain ⟨bytes, htrace, hp⟩ := addPacketToQueue_of_idle env hi' (.kick ⟨reason⟩)
  have hkicked : KicksUnderway (Connection.addPacketToQueue env (.kick ⟨reason⟩)
      (emit (.disconnected (some reason)) s)) := by
    refine ⟨?_, fun before r behind hs => ?_⟩
    · rw [hp, addPacketToQueue_isWriting]
      rfl
    · rw [htrace] at hs
      obtain ⟨middle, hold, rfl⟩ := split_of_quiet (by rfl) hs
      rcases split_of_call hold with ⟨rfl, rfl⟩ | ⟨earlier, hs⟩
      · exact ⟨_, hp, by simp, List.Sublist.refl _⟩
      · obtain ⟨w, hw, _⟩ := h.underway _ _ _ hs
        cases (h.pendingWrite_of_idle hi).symm.trans hw
  have hr : KicksUnderway { Connection.addPacketToQueue env (.kick ⟨reason⟩)
      (emit (.disconnected (some reason)) s) with running := false } := hkicked.congr rfl rfl rfl
  exact (hr.usePlayer id).congr rfl rfl rfl

theorem KicksUnderway.disconnect (h : KicksUnderway s) : KicksUnderway (disconnect s) :=
  h.frame [.disconnected none] rfl rfl rfl rfl

theorem KicksUnderway.tokenChecked (p : SharedKeyPacket) (h : KicksUnderway s) :
    KicksUnderway (tokenChecked p s) :=
  tokenChecked_keeps (fun _ => h.disconnect) h

theorem Closing.frame (effects : List Effect) (h : Closing s)
    (ht : t.trace = s.trace ++ effects) (hq : Quiet effects) (hw : t.isWriting = s.isWriting)
    (hp : t.socket.pendingWrite = s.socket.pendingWrite)
    (hm : t.mustDisconnect = s.mustDisconnect) : Closing t := by
  refine ⟨h.kicks.frame effects ht hq hw hp, fun hd => hw.trans (h.bound (hm.symm.trans hd)),
    fun hd => ?_⟩
  rw [observe, ht, List.filterMap_append, hq, List.append_nil]
  exact h.uncalled (hm.symm.trans hd)

theorem Closing.congr (h : Closing s) (ht : t.trace = s.trace) (hw : t.isWriting = s.isWriting)
    (hp : t.socket.pendingWrite = s.socket.pendingWrite)
    (hm : t.mustDisconnect = s.mustDisconnect) : Closing t :=
  h.frame [] (ht.trans (List.append_nil _).symm) rfl hw hp hm

theorem Closing.usePlayer (f : Player → Player) (h : Closing s) : Closing (usePlayer f s) := by
  refine ⟨h.kicks.usePlayer f, by simpa using h.bound, ?_⟩
  rw [usePlayer_mustDisconnect, observe_usePlayer f s rfl]
  exact h.uncalled

/-- Behind a queued packet a write is in flight. -/
theorem Closing.addPacketToQueue (p : Packet) (h : KicksUnderway s)
    (hu : s.mustDisconnect = false → observe disconnectReason s = []) :
    Closing (addPacketToQueue env p s) := by
  refine ⟨h.addPacketToQueue p, fun _ => addPacketToQueue_isWriting .., ?_⟩
  rw [addPacketToQueue_mustDisconnect, observe_addPacketToQueue env p s fun _ _ => rfl]
  simpa [disconnectReason] using hu

theorem Closing.disconnectWith (reason : UTF16String) (hi : s.isWriting = false)
    (h : Closing s) : Closing (disconnectWith env reason s) :=
  ⟨h.kicks.disconnectWith reason hi, fun _ => disconnectWith_isWriting .., nofun⟩

/-- A completed write that does not close the socket leaves a connection that
is not to be closed. -/
theorem Closing.writeCompleted {w : PendingWrite}
    (hc : ¬ ClosesOnWrite w.bytes.length (completeWrite w s)) (h : Closing s) :
    Closing (handleWrite false w.bytes.length (completeWrite w s)) := by
  rw [handleWrite_of_not_closes hc]
  have hm : s.mustDisconnect = false := Bool.eq_false_iff.mpr fun hm => hc (.inl hm)
  have hu : observe disconnectReason (completeWrite w s) = [] :=
    (observe_emit_none rfl _).trans (h.uncalled hm)
  refine ⟨⟨rfl, fun before reason behind hs => ?_⟩, fun hd => ?_, fun _ => hu⟩
  · refine absurd ?_ (Quiet.not_mem hu reason)
    rw [show (completeWrite w s).trace = _ from hs]
    simp
  · cases hm.symm.trans hd

/-! ## The handlers -/

theorem Closing.versionChecked (p : ClientProtocolPacket)
    (hi : p.protocolVersion ≠ 51 → s.isWriting = false) (h : Closing s) :
    Closing (versionChecked env p s) :=
  versionChecked_keeps Closing.usePlayer (fun _ hv => h.disconnectWith _ (hi hv)) h

theorem Closing.tokenChecked (p : SharedKeyPacket)
    (hw : s.verifyToken ≠ p.verifyToken → s.isWriting = true) (h : Closing s) :
    Closing (tokenChecked p s) :=
  tokenChecked_keeps (fun hv => ⟨h.kicks.disconnect, fun _ => hw hv, nofun⟩) h

theorem tokenChecked_uncalled (p : SharedKeyPacket) (h : Closing s)
    (hm : (Connection.tokenChecked p s).mustDisconnect = false) :
    observe disconnectReason (Connection.tokenChecked p s) = [] := by
  unfold Connection.tokenChecked at hm ⊢
  split_ifs at hm ⊢ with hv
  · cases hm
  · exact h.uncalled hm

theorem Closing.pinged (p : ServerPingPacket) (h : Closing s) : Closing (pinged env p s) := by
  have hk : Closing (Connection.addPacketToQueue env (.kick ⟨serializeServerInfo
      (literal ['1', '.', '4', '.', '7'])
      (literal ("A server running Carpet SRV".toList)) 0 20⟩) s) :=
    .addPacketToQueue _ h.kicks h.uncalled
  exact hk.frame [.handled (.serverPing p)] rfl rfl rfl rfl rfl

theorem Closing.greeted (token : Vector Byte 4) (p : ClientProtocolPacket)
    (hi : p.protocolVersion ≠ 51 → s.isWriting = false) (h : Closing s) :
    Closing (greeted env token p s) := by
  have hv : Closing { Connection.versionChecked env p s with verifyToken := token.toList } :=
    (h.versionChecked p hi).congr rfl rfl rfl rfl
  exact (Closing.addPacketToQueue _ hv.kicks hv.uncalled).frame
    [.handled (.clientProtocol p)] rfl rfl rfl rfl rfl

theorem Closing.loggedIn (cipher : AESCipher κ) (p : SharedKeyPacket) (h : Closing s) :
    Closing (loggedIn env cipher p s) := by
  have hinst : KicksUnderway (emit (.cipherInstalled p.sharedSecret)
      { Connection.tokenChecked p s with cipher := some cipher }) :=
    (h.kicks.tokenChecked p).frame [.cipherInstalled p.sharedSecret] rfl rfl rfl rfl
  have hlogin : Closing (Connection.addPacketToQueue env (.login {}) _) :=
    Closing.addPacketToQueue _ hinst fun hm =>
      (observe_emit_none rfl _).trans (tokenChecked_uncalled p h hm)
  have hspawn : Closing (Connection.addPacketToQueue env (.spawnPoint ⟨0, 0, 0⟩) _) :=
    Closing.addPacketToQueue _ hlogin.kicks hlogin.uncalled
  have hposition : Closing (Connection.addPacketToQueue env (.playerPosition {}) _) :=
    Closing.addPacketToQueue _ hspawn.kicks hspawn.uncalled
  exact hposition.frame [.handled (.sharedKey p)] rfl rfl rfl rfl rfl

end Methods

theorem quiet_of_isReading {e : Effect} (h : e.isReading = true) : Quiet [e] := by
  cases e <;> first | rfl | cases h

theorem closing_readClosed (env : Environment κ) :
    ReadClosed env (WhenOpen DisconnectsInTime) (Closing : Connection κ → Prop) where
  readBuffer _ h := h.congr rfl rfl rfl rfl
  pendingRead _ h := h.congr rfl rfl rfl rfl
  decryptCtx _ _ h := h.congr rfl rfl rfl rfl
  emit {_ e} he h := h.frame [e] rfl (quiet_of_isReading he) rfl rfl rfl
  pinged _ _ h := h.pinged _
  unseeded _ hq _ h := h.versionChecked _ (hq.2 hq.1)
  greeted _ hq _ h := h.greeted _ _ (hq.2 hq.1)
  badKey _ hq hlen h := h.tokenChecked _ (hq.2 hq.1 hlen)
  loggedIn _ _ _ h := h.loggedIn _ _
  informed {_ p _} _ h := (h.usePlayer _).frame [.handled (.clientInfo p)] rfl rfl rfl rfl rfl
  keptAlive _ h := h.frame [.handled .keepAlive] rfl rfl rfl rfl rfl
  positioned {_ p _} _ h :=
    (h.usePlayer _).frame [.handled (.playerPosition p)] rfl rfl rfl rfl rfl

theorem ClosingWhileOpen.step {env : Environment κ} {s t : Connection κ} {e : ConnectionEvent}
    (hg : Punctual env s e) (hstep : step env s e = some t) (h : ClosingWhileOpen s) :
    ClosingWhileOpen t := by
  have hclosed := (closing_readClosed env).whileOpen
  cases step_cases hstep with
  | handleConnection _ _ =>
      exact hclosed.startRead fun ho => (h ho).congr rfl rfl rfl rfl
  | readCompleted _ _ => exact hclosed.readCompleted hg h
  | readFailed _ => exact hclosed.pendingRead false h
  | writeCompleted hw ho =>
      intro hopen
      exact (h ho).writeCompleted (isOpen_handleWrite_iff.mp hopen).2
  | writeFailed _ => exact hg.elim
  | @sendKeepAlive now =>
      intro ho
      unfold sendKeepAlive at ho ⊢
      split_ifs at ho ⊢ with hlate hplay
      · have hopen : s.socket.isOpen = true := by simpa using ho
        have hi : s.isWriting = false := by
          have := hg hopen hlate
          simpa [hplay] using this
        exact (h hopen).disconnectWith _ hi
      · exact ⟨(h ho).kicks.disconnect, fun _ => (hg ho hlate).mpr hplay, nofun⟩
      · exact h ho
  | kickPlayer =>
      intro ho
      have hopen : s.socket.isOpen = true := by simpa using ho
      exact (h hopen).disconnectWith _ (hg hopen)
  | addPacketToQueue =>
      intro ho
      have hs := h (by simpa using ho)
      exact .addPacketToQueue _ hs.kicks hs.uncalled

/-! ## Disconnections complete -/

/-- The completion of a write delivers the kicks that were in it. -/
theorem kicksCompleted_of_writeCompleted {s : Connection κ} {w : PendingWrite}
    (hw : s.socket.pendingWrite = some w) (h : KicksUnderway s) :
    KicksCompleted (handleWrite false w.bytes.length (completeWrite w s)) := by
  obtain ⟨effects, ht, heffects⟩ := handleWrite_trace false w.bytes.length (completeWrite w s)
  have htrace : (handleWrite false w.bytes.length (completeWrite w s)).trace =
      s.trace ++ (.writeCompleted w.batch :: effects) := by
    calc
      _ = (completeWrite w s).trace ++ effects := ht
      _ = s.trace ++ [.writeCompleted w.batch] ++ effects := by rw [completeWrite, emit_trace]
      _ = s.trace ++ (.writeCompleted w.batch :: effects) := List.append_assoc ..
  have hq : Quiet (.writeCompleted w.batch :: effects) := by
    apply List.filterMap_eq_nil_iff.mpr
    intro e he
    rcases List.mem_cons.mp he with rfl | he
    · rfl
    · rcases heffects e he with rfl | rfl <;> rfl
  intro before reason behind hs
  rw [htrace] at hs
  obtain ⟨middle, hold, rfl⟩ := split_of_quiet hq hs
  obtain ⟨w', hw', hmem, hsub⟩ := h.underway _ _ _ hold
  cases hw.symm.trans hw'
  exact ⟨w.batch, w.bytes, hmem, hsub.append (List.singleton_sublist.mpr List.mem_cons_self)⟩

/-- In every run whose disconnections are punctual, a connection that is to be
closed and has no write in flight is closed, and the write completion that
closes the socket has delivered the kick packet of every reason. -/
theorem disconnection_completes_of_punctual_run {env : Environment κ} {now : Int}
    {es : List ConnectionEvent} {s : Connection κ}
    (run : GuardedRun (step env) (Punctual env) (create now) es s) :
    (s.mustDisconnect = true → s.socket.pendingWrite = none → s.socket.isOpen = false) ∧
      ∀ t, step env s .writeCompleted = some t → t.socket.isOpen = false → KicksCompleted t := by
  have hinv : ClosingWhileOpen s :=
    run.invariant (fun _ _ _ hg hstep h => ClosingWhileOpen.step hg hstep h) fun _ =>
      ⟨⟨rfl, fun before _ _ hs => by simp [create] at hs⟩, nofun, fun _ => rfl⟩
  constructor
  · intro hm hp
    apply Bool.eq_false_iff.mpr
    intro ho
    have hc := hinv ho
    have hw := (hc.kicks.paired.symm.trans (hc.bound hm))
    rw [hp] at hw
    cases hw
  · intro t hstep _
    cases step_cases hstep with
    | writeCompleted hw ho => exact kicksCompleted_of_writeCompleted hw (hinv ho).kicks

/-- A kick between two writes. -/
def kickEvents : List ConnectionEvent :=
  [.handleConnection {},
    .readCompleted (ClientPacket.clientProtocol 51 [] [] 0).encode chainAmbient,
    .writeCompleted, .kickPlayer [0x62]]

/-- The next completion closes the socket. -/
theorem disconnection_completes_of_punctual_run_kick : ∃ s t : Connection Byte,
    GuardedRun (step chainEnvironment) (Punctual chainEnvironment) (create 0) kickEvents s ∧
      s.mustDisconnect = true ∧ step chainEnvironment s .writeCompleted = some t ∧
      t.socket.isOpen = false ∧ KicksCompleted t := by
  obtain ⟨s, hrun, hm, t, ht, hclosed⟩ := exists_guardedRun
      (step chainEnvironment) (Punctual chainEnvironment) (create 0) kickEvents
      (fun s => s.mustDisconnect = true ∧
        ∃ t ∈ step chainEnvironment s .writeCompleted, t.socket.isOpen = false)
    (by decide +kernel)
  have hkicks := (disconnection_completes_of_punctual_run hrun).2 t ht hclosed
  exact ⟨s, t, hrun, hm, ht, hclosed, hkicks⟩

def completedBatch : Effect → Option (List Packet)
  | .writeCompleted batch => some batch
  | _ => none

theorem not_kicksCompleted {s : Connection κ} {reason : UTF16String}
    (hcall : .disconnected (some reason) ∈ s.trace)
    (hlost : ∀ batch ∈ observe completedBatch s, .kick ⟨reason⟩ ∉ batch) : ¬ KicksCompleted s := by
  intro h
  obtain ⟨before, behind, hs⟩ := List.append_of_mem hcall
  obtain ⟨batch, bytes, hmem, hsub⟩ := h _ _ _ hs
  have hcompleted : .writeCompleted batch ∈ s.trace := by
    have hmem : .writeCompleted batch ∈ behind := hsub.subset (by simp)
    rw [hs]
    exact List.mem_append_right _ (List.mem_cons_of_mem _ hmem)
  exact hlost batch (mem_observe.mpr ⟨_, hcompleted, rfl⟩) hmem

/-- A timeout on an idle connection leaves it open for good, and a kick during
a write is lost when the completion of that write closes the socket. -/
theorem disconnection_fails :
    (∃ s : Connection Byte,
      GuardedRun (step chainEnvironment) (fun _ e => Succeeds e) (create 0)
        [.handleConnection {}, .sendKeepAlive 21] s ∧
      s.mustDisconnect = true ∧ s.socket.pendingWrite = none ∧ s.socket.isOpen = true) ∧
    ∃ s t : Connection Byte,
      GuardedRun (step chainEnvironment) (fun _ e => Succeeds e) (create 0)
        [.handleConnection {},
          .readCompleted (ClientPacket.clientProtocol 51 [] [] 0).encode chainAmbient,
          .kickPlayer [0x62]] s ∧
      step chainEnvironment s .writeCompleted = some t ∧ t.socket.isOpen = false ∧
        ¬ KicksCompleted t := by
  refine ⟨exists_guardedRun _ _ _ _ _ (by decide +kernel), ?_⟩
  obtain ⟨s, hrun, t, ht, hclosed, hcall, hlost⟩ :=
    exists_guardedRun (step chainEnvironment) (fun _ e => Succeeds e) (create 0)
      [.handleConnection {},
        .readCompleted (ClientPacket.clientProtocol 51 [] [] 0).encode chainAmbient,
        .kickPlayer [0x62]]
      (fun s => ∃ t ∈ step chainEnvironment s .writeCompleted, t.socket.isOpen = false ∧
        .disconnected (some [0x62]) ∈ t.trace ∧
        ∀ batch ∈ observe completedBatch t, .kick ⟨[0x62]⟩ ∉ batch) (by decide +kernel)
  exact ⟨s, t, hrun, ht, hclosed, not_kicksCompleted hcall hlost⟩

end CarpetSrv.Network.Connection
