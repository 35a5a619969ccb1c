import CarpetSrv.Network.ReadBuffer
import CarpetSrv.Network.RunInvariant

/-!
# The regions of posted reads

`start_read` posts whatever `mutableBuffer` describes: the part of the vector
behind the read position. Handlers may leave that position anywhere, also
behind the end of the vector, and the exception of one may have emptied it. In
every run each posted region ends with the storage and is not empty.

## Implementation notes

A region is taken from the history, where its length is the truncated
difference of the two sizes. An inside region shows that nothing was cut off.
-/

namespace CarpetSrv.Network.Connection

open Foundation Packet Utils Buffer

variable {κ : Type}

/-- The part of the vector that a read may fill. -/
structure Region where
  offset : Nat
  length : Nat
  deriving DecidableEq

/-- The region is not empty and ends where the storage ends. -/
def Region.Inside (r : Region) : Prop :=
  r.offset < readBufferSize ∧ r.offset + r.length = readBufferSize

def posting : Effect → Option Region
  | .readPosted offset length => some ⟨offset, length⟩
  | _ => none

/-- The regions that `start_read` has posted so far, in order. -/
def postings (s : Connection κ) : List Region := observe posting s

/-- The region behind the read position. -/
def region (s : Connection κ) : Region := ⟨s.readBuffer.readPos, s.regionLength⟩

theorem Posted.region_inside {s : Connection κ} (h : Posted s) : (region s).Inside := by
  obtain ⟨hlen, hpos⟩ := h
  refine ⟨hpos, ?_⟩
  simp only [region, regionLength]
  omega

/-- Only `start_read` posts, and it posts the region that it leaves. -/
theorem postings_startRead (s : Connection κ) :
    postings (startRead s) = postings s ++ [region (startRead s)] :=
  observe_emit_some (f := posting) rfl _

section Methods

variable (env : Environment κ) (s : Connection κ)

theorem postings_addPacketToQueue (packet : Packet) :
    postings (addPacketToQueue env packet s) = postings s :=
  (observe_addPacketToQueue env packet s fun _ _ => rfl).trans (List.append_nil _)

theorem postings_usePlayer (f : Player → Player) : postings (usePlayer f s) = postings s :=
  observe_usePlayer f s rfl

theorem postings_disconnectWith (reason : UTF16String) :
    postings (disconnectWith env reason s) = postings s := by
  refine (observe_disconnectWith env reason s (fun _ _ => rfl) rfl).trans ?_
  simp only [posting, Option.toList_none, List.append_nil]
  rfl

theorem postings_versionChecked (p : ClientProtocolPacket) :
    postings (versionChecked env p s) = postings s := by
  refine versionChecked_keeps (I := fun t => postings t = postings s) ?_ ?_ rfl
  · intro t f h
    rw [postings_usePlayer, h]
  · intro reason _
    exact postings_disconnectWith env s reason

theorem postings_decryptReadBuffer (size : Nat) :
    postings (decryptReadBuffer env size s) = postings s := by
  unfold decryptReadBuffer
  cases s.cipher with
  | none => rfl
  | some c => exact observe_emit_none rfl _

/-- No handler posts a read. -/
theorem postings_handlerClosed (base : List Region) :
    HandlerClosed env AnyPacket fun s => postings s = base where
  readBuffer _ h := h
  dispatched id h := (observe_emit_none rfl _).trans h
  pinged {_ p s} _ _ h := by
    refine (observe_pinged env s (fun _ _ => rfl) p).trans ?_
    simpa [posting, postings] using h
  unseeded _ _ _ h := (postings_versionChecked ..).trans h
  greeted {_ p s token} _ _ _ h := by
    have hv : observe posting (versionChecked env p s) = base :=
      (postings_versionChecked env s p).trans h
    refine (observe_greeted env s (fun _ _ => rfl) token p).trans ?_
    simpa [posting] using hv
  badKey {_ p s} _ _ _ h := (observe_tokenChecked s rfl p).trans h
  loggedIn {_ p s} _ _ _ h := by
    refine (observe_loggedIn env s (fun _ _ => rfl) _ p).trans ?_
    rw [observe_tokenChecked s rfl]
    simpa [posting, postings] using h
  informed _ h := ((observe_emit_none rfl _).trans (postings_usePlayer ..)).trans h
  keptAlive _ h := (observe_emit_none rfl _).trans h
  positioned _ h := ((observe_emit_none rfl _).trans (postings_usePlayer ..)).trans h

theorem postings_processPackets (ambient : Ambient) (size : Nat) :
    postings (processPackets env ambient size s) = postings s :=
  (postings_handlerClosed env (postings s)).processPackets (eachPacket_anyPacket ..) rfl

end Methods

/-! ## Every run -/

/-- Every region posted so far was inside the storage, and an outstanding read
fills the last of them. -/
structure PostedInside (s : Connection κ) : Prop where
  inside : ∀ r ∈ postings s, r.Inside
  last : s.socket.pendingRead = true → (postings s).getLast? = some (region s)

namespace PostedInside

variable {env : Environment κ} {s t : Connection κ}

theorem of_create (now : Int) : PostedInside (create now : Connection κ) where
  inside _ h := nomatch h
  last := nofun

/-- A step that neither posts nor reads keeps the invariant. -/
theorem congr (h : PostedInside s) (hb : t.readBuffer = s.readBuffer)
    (hp : t.socket.pendingRead = s.socket.pendingRead) (hpost : postings t = postings s) :
    PostedInside t where
  inside r hr := by
    rw [hpost] at hr
    exact h.inside r hr
  last ht := by
    have hregion : region t = region s := by
      simp only [region, regionLength, hb]
    rw [hpost, hregion]
    exact h.last (hp.symm.trans ht)

/-- The read that `start_read` posts has room, whatever the read position is. -/
theorem startRead (hlen : s.readBuffer.data.length ≤ readBufferSize)
    (hinside : ∀ r ∈ postings s, r.Inside) : PostedInside (startRead s) where
  inside r hr := by
    rw [postings_startRead, List.mem_append, List.mem_singleton] at hr
    rcases hr with hold | rfl
    · exact hinside r hold
    · exact (startRead_posted hlen).region_inside
  last _ := by
    rw [postings_startRead]
    exact List.getLast?_concat

theorem step {e : ConnectionEvent} (hstep : step env s e = some t) (hready : ReadReady s)
    (h : PostedInside s) : PostedInside t := by
  cases step_cases hstep with
  | handleConnection _ _ => exact .startRead hready.bounded h.inside
  | @readCompleted bytes ambient hr hl =>
      apply PostedInside.startRead
      · exact length_processPackets_le env ambient _ (hready.length_receive_le hr hl)
      · have hreceived : postings (receive bytes s) = postings s := observe_emit_none rfl _
        rw [postings_processPackets, postings_decryptReadBuffer, hreceived]
        exact h.inside
  | readFailed _ => exact ⟨h.inside, nofun⟩
  | @writeCompleted w _ _ =>
      have hdone : postings (completeWrite w s) = postings s := observe_emit_none rfl _
      exact h.congr (handleWrite_readBuffer ..) (handleWrite_pendingRead ..)
        ((observe_handleWrite rfl rfl ..).trans hdone)
  | writeFailed _ =>
      exact h.congr (handleWrite_readBuffer ..) (handleWrite_pendingRead ..)
        (observe_handleWrite rfl rfl ..)
  | sendKeepAlive =>
      apply sendKeepAlive_keeps
      · intro reason
        exact h.congr (disconnectWith_readBuffer ..) (disconnectWith_pendingRead ..)
          (postings_disconnectWith ..)
      · exact h.congr rfl rfl (observe_emit_none rfl _)
      · exact h
  | kickPlayer =>
      exact h.congr (disconnectWith_readBuffer ..) (disconnectWith_pendingRead ..)
        (postings_disconnectWith ..)
  | addPacketToQueue =>
      exact h.congr (addPacketToQueue_readBuffer ..) (addPacketToQueue_pendingRead ..)
        (postings_addPacketToQueue ..)

end PostedInside

/-- In every run each read that `start_read` posts has room behind the read
position, and the region it fills ends with the 4096 bytes of the vector. -/
theorem posted_reads_inside {env : Environment κ} {now : Int} {es : List ConnectionEvent}
    {s : Connection κ} (run : GuardedRun (step env) Unguarded (create now) es s) :
    (∀ offset length, .readPosted offset length ∈ s.trace →
      offset < readBufferSize ∧ offset + length = readBufferSize) ∧
    (s.socket.pendingRead = true →
      (postings s).getLast? = some ⟨s.readBuffer.readPos, s.regionLength⟩ ∧
        s.readBuffer.data.length = readBufferSize ∧ s.readBuffer.readPos < readBufferSize) := by
  have hinv : ReadReady s ∧ PostedInside s :=
    run.invariant (I := fun s => ReadReady s ∧ PostedInside s)
      (fun _ _ _ _ hstep h => ⟨ReadReady.step hstep h.1, PostedInside.step hstep h.1 h.2⟩)
      ⟨.of_create now, .of_create now⟩
  obtain ⟨hready, h⟩ := hinv
  constructor
  · intro offset length hmem
    exact h.inside ⟨offset, length⟩ (mem_observe.mpr ⟨_, hmem, rfl⟩)
  · intro hr
    exact ⟨h.last hr, hready.posted hr⟩

/-- A login posts three reads, and the last one has room. -/
theorem posted_reads_inside_login : ∃ s : Connection Byte,
    GuardedRun (step chainEnvironment) Unguarded (create 0) (loginEvents 51 [1, 2, 3, 4]) s ∧
      (postings s).length = 3 ∧ (region s).Inside := by
  obtain ⟨s, hrun, hlen, hr⟩ := exists_guardedRun (step chainEnvironment) Unguarded (create 0)
    (loginEvents 51 [1, 2, 3, 4])
    (fun s => (postings s).length = 3 ∧ s.socket.pendingRead = true) (by decide +kernel)
  have hroom : Posted s := ((posted_reads_inside hrun).2 hr).2
  exact ⟨s, hrun, hlen, hroom.region_inside⟩

end CarpetSrv.Network.Connection
