import CarpetSrv.Network.ReadBuffer
import CarpetSrv.Network.RunInvariant

/-!
# Inbound decryption

`handle_read` decrypts the whole vector on every read, while only the bytes of
this read are new. The decrypt context is a stream: it has to be fed the
received bytes and nothing else. It is exactly when every read after the
installation of the cipher fills the whole vector.

## Implementation notes

The reading side of the history is observed as one list. Before the cipher is
installed it consists of received chunks, and behind it each chunk is followed
by the decryption of the vector it arrived in.
-/

namespace CarpetSrv.Network.Connection

open Foundation Foundation.ExceptState Packet Utils Buffer

variable {κ : Type}

/-! ## The reading side of the history -/

inductive InboundEvent
  | received (chunk : List Byte)
  | installed (key : List Byte)
  | decrypted (offset size : Nat) (input output : List Byte)
  deriving DecidableEq

namespace InboundEvent

def ofEffect : Effect → Option InboundEvent
  | .received _ bytes => some (.received bytes)
  | .cipherInstalled key => some (.installed key)
  | .decrypted offset size input output => some (.decrypted offset size input output)
  | _ => none

def isInstalled : InboundEvent → Bool
  | .installed _ => true
  | _ => false

def key : InboundEvent → Option (List Byte)
  | .installed key => some key
  | _ => none

def chunk : InboundEvent → Option (List Byte)
  | .received chunk => some chunk
  | _ => none

/-- The bytes that were fed to the decrypt context. -/
def fed : InboundEvent → List Byte
  | .decrypted _ _ input _ => input
  | _ => []

/-- The decrypted bytes at the positions that the read had filled. -/
def fresh : InboundEvent → List Byte
  | .decrypted offset size _ output => (output.drop offset).take size
  | _ => []

end InboundEvent

def inbound (s : Connection κ) : List InboundEvent := observe InboundEvent.ofEffect s

/-- The key of the first cipher that was installed. -/
def inboundKey (s : Connection κ) : Option (List Byte) := (inbound s).findSome? InboundEvent.key

/-- The chunks that arrived after the cipher was installed. -/
def chunksSinceCipher (s : Connection κ) : List (List Byte) :=
  ((inbound s).dropWhile fun e => !e.isInstalled).filterMap InboundEvent.chunk

/-- Everything that was fed to the decrypt context. -/
def fedBytes (s : Connection κ) : List Byte := (inbound s).flatMap InboundEvent.fed

/-- What `process_packets` finds at the positions filled since the cipher was installed. -/
def freshBytes (s : Connection κ) : List Byte := (inbound s).flatMap InboundEvent.fresh

/-- The decrypt context was fed what was received since the cipher was
installed, and where this is a part of the peer's ciphertext, the same part of
the plaintext stands at the filled positions. -/
def FollowsCiphertext (env : Environment κ) (key : List Byte) (s : Connection κ) : Prop :=
  fedBytes s = (chunksSinceCipher s).flatten ∧
    ∀ plain, (chunksSinceCipher s).flatten <+: (env.evp.encrypt (env.evp.encryptInit key) plain).1 →
      freshBytes s = plain.take (chunksSinceCipher s).flatten.length

/-! ## The invariant -/

/-- One read with a cipher: the chunk and the decryption of the vector. -/
structure DecryptedRead where
  chunk : List Byte
  offset : Nat
  input : List Byte
  output : List Byte

namespace DecryptedRead

def events (r : DecryptedRead) : List InboundEvent :=
  [.received r.chunk, .decrypted r.offset r.chunk.length r.input r.output]

/-- The whole vector is decrypted, and a chunk of its size is the vector. -/
structure Whole (r : DecryptedRead) : Prop where
  input : r.input.length = readBufferSize
  output : r.output.length = readBufferSize
  chunk : r.chunk.length ≤ readBufferSize
  filled : r.chunk.length = readBufferSize → r.offset = 0 ∧ r.input = r.chunk

end DecryptedRead

/-- The shape of the reading side, and the decrypt context behind it. -/
inductive Deciphering (env : Environment κ) (s : Connection κ) : Prop
  | plain (early : List (List Byte)) (hc : s.cipher = none)
      (hi : inbound s = early.map .received)
  | keyed (early : List (List Byte)) (key : List Byte) (reads : List DecryptedRead)
      (hs : s.status = .play)
      (hi : inbound s = early.map .received ++ .installed key :: reads.flatMap DecryptedRead.events)
      (hc : s.cipher.map AESCipher.decryptCtx = some (env.evp.decrypt (env.evp.decryptInit key)
        (reads.flatMap DecryptedRead.input)).2)
      (ho : reads.flatMap DecryptedRead.output =
        (env.evp.decrypt (env.evp.decryptInit key) (reads.flatMap DecryptedRead.input)).1)
      (hw : ∀ r ∈ reads, r.Whole)

section Methods

variable {env : Environment κ} {s t : Connection κ}

theorem Deciphering.congr (h : Deciphering env s) (hi : inbound t = inbound s)
    (hc : t.cipher.map AESCipher.decryptCtx = s.cipher.map AESCipher.decryptCtx)
    (hst : s.status = .play → t.status = .play) : Deciphering env t := by
  cases h with
  | plain early hcipher hin =>
      refine .plain early ?_ (hi.trans hin)
      rw [hcipher] at hc
      exact Option.map_eq_none_iff.mp hc
  | keyed early key reads hplay hin hctx hout hwhole =>
      exact .keyed early key reads (hst hplay) (hi.trans hin) (hc.trans hctx) hout hwhole

theorem Deciphering.emit {e : Effect} (he : InboundEvent.ofEffect e = none)
    (h : Deciphering env s) : Deciphering env (emit e s) :=
  h.congr (observe_emit_none he s) rfl id

theorem Deciphering.addPacketToQueue (p : Packet) (h : Deciphering env s) :
    Deciphering env (addPacketToQueue env p s) := by
  refine h.congr ?_ (addPacketToQueue_writesOnly env p s).decryptCtx ?_
  · exact (observe_addPacketToQueue env p s fun _ _ => rfl).trans (List.append_nil _)
  · rw [addPacketToQueue_status]
    exact id

theorem Deciphering.usePlayer (f : Player → Player) (h : Deciphering env s) :
    Deciphering env (usePlayer f s) := by
  refine h.congr (observe_usePlayer f s rfl) ?_ ?_
  · rw [usePlayer_cipher]
  · rw [usePlayer_status]
    exact id

theorem Deciphering.disconnectWith (reason : UTF16String) (h : Deciphering env s) :
    Deciphering env (disconnectWith env reason s) :=
  disconnectWith_keeps reason Deciphering.addPacketToQueue Deciphering.usePlayer
    (fun h => h.congr rfl rfl id) (fun h => h.congr rfl rfl id) (h.emit rfl)

theorem Deciphering.disconnect (h : Deciphering env s) : Deciphering env (disconnect s) :=
  h.congr (observe_emit_none rfl _) rfl id

theorem Deciphering.versionChecked (p : ClientProtocolPacket) (h : Deciphering env s) :
    Deciphering env (versionChecked env p s) :=
  versionChecked_keeps Deciphering.usePlayer (fun _ _ => h.disconnectWith _) h

theorem Deciphering.tokenChecked (p : SharedKeyPacket) (h : Deciphering env s) :
    Deciphering env (tokenChecked p s) :=
  tokenChecked_keeps (fun _ => h.disconnect) h

theorem Deciphering.handleWrite (failed : Bool) (size : Nat) (h : Deciphering env s) :
    Deciphering env (handleWrite failed size s) := by
  refine h.congr (observe_handleWrite (f := InboundEvent.ofEffect) rfl rfl failed size s) ?_ ?_
  · rw [handleWrite_cipher]
  · rw [handleWrite_status]
    exact id

/-- The cipher is installed in LOGIN, where no cipher was installed before. -/
theorem Deciphering.loggedIn (p : SharedKeyPacket) (hst : s.status = .login)
    (h : Deciphering env s) :
    Deciphering env (loggedIn env (cipherOf env p.sharedSecret) p s) := by
  cases h with
  | keyed _ _ _ hplay _ _ _ _ => cases hplay.symm.trans hst
  | plain early hcipher hin =>
      refine .keyed early p.sharedSecret [] rfl ?_ ?_ rfl nofun
      · apply (observe_loggedIn env s (f := InboundEvent.ofEffect) (fun _ _ => rfl) _ p).trans
        rw [observe_tokenChecked s rfl, show observe InboundEvent.ofEffect s = _ from hin]
        simp [InboundEvent.ofEffect]
      · exact (addPacketToQueue_writesOnly env _ _).decryptCtx.trans
          ((addPacketToQueue_writesOnly env _ _).decryptCtx.trans
            (addPacketToQueue_writesOnly env _ _).decryptCtx)

theorem deciphering_handlerClosed (env : Environment κ) :
    HandlerClosed env AnyPacket (Deciphering env) where
  readBuffer _ h := h.congr rfl rfl id
  dispatched _ h := h.emit rfl
  pinged hst _ h := Deciphering.emit rfl
    ((h.addPacketToQueue _).congr rfl rfl fun hp => by simp [hst] at hp)
  unseeded _ _ _ h := h.versionChecked _
  greeted {_ p s token} hst _ _ h := by
    have hv : Deciphering env
        { Connection.versionChecked env p s with verifyToken := token.toList } :=
      (h.versionChecked p).congr rfl rfl id
    exact Deciphering.emit rfl
      ((hv.addPacketToQueue _).congr rfl rfl fun hp => by simp [hst] at hp)
  badKey _ _ _ h := h.tokenChecked _
  loggedIn hst _ _ h := h.loggedIn _ hst
  informed _ h := (h.usePlayer _).emit rfl
  keptAlive _ h := Deciphering.emit rfl (h.congr rfl rfl id)
  positioned _ h := (h.usePlayer _).emit rfl

end Methods

/-! ## Read completions -/

section Read

variable {env : Environment κ} {s : Connection κ} {bytes : List Byte}

theorem inbound_receive (bytes : List Byte) (s : Connection κ) :
    inbound (receive bytes s) = inbound s ++ [.received bytes] :=
  observe_emit InboundEvent.ofEffect _ _

/-- A chunk of the size of the vector arrives at its start and replaces it. -/
theorem receive_whole (hp : Posted s) (hl : bytes.length ≤ s.regionLength)
    (hb : bytes.length = readBufferSize) :
    s.readBuffer.readPos = 0 ∧ (receive bytes s).readBuffer.data = bytes := by
  unfold regionLength at hl
  have hlen := hp.1
  have hpos : s.readBuffer.readPos = 0 := by
    have := hp.2
    omega
  refine ⟨hpos, ?_⟩
  have hdrop : s.readBuffer.data.drop bytes.length = [] :=
    List.drop_eq_nil_iff.mpr (by omega)
  simp [receive, hpos, hdrop]

/-- Receiving and decrypting adds a chunk or a decrypted read. -/
theorem Deciphering.received (h : Deciphering env s) (hp : Posted s)
    (hl : bytes.length ≤ s.regionLength) :
    Deciphering env (decryptReadBuffer env bytes.length (receive bytes s)) := by
  have hpos : s.readBuffer.readPos ≤ s.readBuffer.data.length := by
    have := hp.1
    have := hp.2
    omega
  have hlen := (length_receive hpos hl).trans hp.1
  cases h with
  | plain early hcipher hin =>
      have hnone : (receive bytes s).cipher = none := hcipher
      rw [decryptReadBuffer_of_none _ _ hnone]
      refine .plain (early ++ [bytes]) hnone ?_
      rw [inbound_receive, hin, List.map_append]
      rfl
  | keyed early key reads hplay hin hctx hout hwhole =>
      obtain ⟨c, hc, hcd⟩ := Option.map_eq_some_iff.mp hctx
      have hsome : (receive bytes s).cipher = some c := hc
      rw [decryptReadBuffer, hsome]
      refine .keyed early key (reads ++ [⟨bytes, s.readBuffer.readPos,
        (receive bytes s).readBuffer.data,
        (env.evp.decrypt c.decryptCtx (receive bytes s).readBuffer.data).1⟩]) hplay ?_ ?_ ?_ ?_
      · refine (observe_emit InboundEvent.ofEffect _ _).trans
          ((congrArg (· ++ _) (inbound_receive bytes s)).trans ?_)
        simp [hin, DecryptedRead.events, InboundEvent.ofEffect]
      · simp [hcd, StreamCipher.decrypt_append]
      · simp [hcd, StreamCipher.decrypt_append, hout]
      · intro r hr
        rcases List.mem_append.mp hr with hr | hr
        · exact hwhole r hr
        · rw [List.mem_singleton.mp hr]
          refine ⟨hlen, ?_, ?_, receive_whole hp hl⟩
          · exact (StreamCipher.length_decrypt ..).trans hlen
          · unfold regionLength at hl
            have := hp.1
            dsimp only
            omega

theorem Deciphering.startRead (h : Deciphering env s) : Deciphering env (startRead s) :=
  Deciphering.emit rfl (h.congr rfl rfl id)

theorem Deciphering.step {t : Connection κ} {e : ConnectionEvent} (hready : ReadReady s)
    (hstep : step env s e = some t) (h : Deciphering env s) : Deciphering env t := by
  cases step_cases hstep with
  | handleConnection _ _ => exact Deciphering.startRead (h.congr rfl rfl id)
  | readCompleted hr hl =>
      exact ((deciphering_handlerClosed env).processPackets (eachPacket_anyPacket ..)
        (h.received (hready.posted hr) hl)).startRead
  | readFailed _ => exact h.congr rfl rfl id
  | writeCompleted _ _ =>
      exact Deciphering.handleWrite _ _ (Deciphering.emit rfl (h.congr rfl rfl id))
  | writeFailed _ => exact Deciphering.handleWrite _ _ (h.congr rfl rfl id)
  | sendKeepAlive =>
      exact sendKeepAlive_keeps _ (fun _ => h.disconnectWith _) h.disconnect h
  | kickPlayer => exact h.disconnectWith _
  | addPacketToQueue => exact h.addPacketToQueue _

end Read

/-! ## The fed stream and the received stream -/

namespace DecryptedRead

variable {reads : List DecryptedRead}

theorem length_chunks_le (hw : ∀ r ∈ reads, r.Whole) :
    (reads.flatMap chunk).length ≤ (reads.flatMap input).length := by
  induction reads with
  | nil => exact Nat.le_refl _
  | cons r reads ih =>
      have hr := hw r List.mem_cons_self
      have htail := ih fun r hmem => hw r (List.mem_cons_of_mem _ hmem)
      have := hr.input
      have := hr.chunk
      simp only [List.flatMap_cons, List.length_append]
      omega

/-- The streams are equal exactly when every chunk has the size of the vector. -/
theorem input_eq_chunk_iff (hw : ∀ r ∈ reads, r.Whole) :
    reads.flatMap input = reads.flatMap chunk ↔ ∀ r ∈ reads, r.chunk.length = readBufferSize := by
  induction reads with
  | nil => simp
  | cons r reads ih =>
      have hr := hw r List.mem_cons_self
      have hrest : ∀ r ∈ reads, r.Whole := fun r hmem => hw r (List.mem_cons_of_mem _ hmem)
      rw [List.forall_mem_cons, ← ih hrest, List.flatMap_cons, List.flatMap_cons]
      constructor
      · intro heq
        have hle := length_chunks_le hrest
        have hlen := congrArg List.length heq
        simp only [List.length_append] at hlen
        have := hr.input
        have := hr.chunk
        have hchunk : r.chunk.length = readBufferSize := by omega
        rw [(hr.filled hchunk).2] at heq
        exact ⟨hchunk, List.append_cancel_left heq⟩
      · rintro ⟨hchunk, heq⟩
        rw [(hr.filled hchunk).2, heq]

theorem fresh_eq_output (hw : ∀ r ∈ reads, r.Whole)
    (hfull : ∀ r ∈ reads, r.chunk.length = readBufferSize) :
    (reads.flatMap events).flatMap InboundEvent.fresh = reads.flatMap output := by
  induction reads with
  | nil => rfl
  | cons r reads ih =>
      have hr := hw r List.mem_cons_self
      have hchunk := hfull r List.mem_cons_self
      have htail := ih (fun r hmem => hw r (List.mem_cons_of_mem _ hmem))
        fun r hmem => hfull r (List.mem_cons_of_mem _ hmem)
      have htake : (r.output.drop r.offset).take r.chunk.length = r.output := by
        rw [(hr.filled hchunk).1, hchunk, List.drop_zero, ← hr.output, List.take_length]
      simp [events, InboundEvent.fresh, htail, htake]

theorem fed_events : (reads.flatMap events).flatMap InboundEvent.fed = reads.flatMap input := by
  induction reads with
  | nil => rfl
  | cons r reads ih => simp [events, InboundEvent.fed, ih]

theorem chunk_events : (reads.flatMap events).filterMap InboundEvent.chunk = reads.map chunk := by
  induction reads with
  | nil => rfl
  | cons r reads ih =>
      rw [List.flatMap_cons, List.filterMap_append, ih]
      rfl

end DecryptedRead

section Shape

variable (early : List (List Byte)) (key : List Byte) (rest : List InboundEvent)

theorem dropWhile_shape :
    (early.map InboundEvent.received ++ InboundEvent.installed key :: rest).dropWhile
      (fun e => !e.isInstalled) = InboundEvent.installed key :: rest := by
  induction early with
  | nil => rfl
  | cons chunk early ih => exact ih

theorem findSome?_shape :
    (early.map InboundEvent.received ++ InboundEvent.installed key :: rest).findSome?
      InboundEvent.key = some key := by
  induction early with
  | nil => rfl
  | cons chunk early ih => exact ih

theorem flatMap_received {f : InboundEvent → List Byte} (hf : ∀ chunk, f (.received chunk) = []) :
    (early.map InboundEvent.received).flatMap f = [] := by
  induction early with
  | nil => rfl
  | cons chunk early ih => simp [hf]

end Shape

/-- In every run, the decrypt context follows the ciphertext exactly when every
read since the installation of the cipher fills the whole vector. -/
theorem followsCiphertext_iff {env : Environment κ} {now : Int} {es : List ConnectionEvent}
    {s : Connection κ} {key : List Byte} (run : GuardedRun (step env) Unguarded (create now) es s)
    (hkey : inboundKey s = some key) :
    FollowsCiphertext env key s ↔ ∀ chunk ∈ chunksSinceCipher s, chunk.length = readBufferSize := by
  have hinv : ReadReady s ∧ Deciphering env s :=
    run.invariant (I := fun s => ReadReady s ∧ Deciphering env s)
      (fun _ _ _ _ hstep h => ⟨ReadReady.step hstep h.1, Deciphering.step h.1 hstep h.2⟩)
      ⟨.of_create now, .plain [] rfl rfl⟩
  cases hinv.2 with
  | plain early _ hin =>
      rw [inboundKey, hin] at hkey
      have hnone : (early.map InboundEvent.received).findSome? InboundEvent.key = none := by
        simp [InboundEvent.key]
      cases hnone.symm.trans hkey
  | keyed early k reads _ hin _ hout hwhole =>
      have hk : k = key := by
        rw [inboundKey, hin, findSome?_shape] at hkey
        exact Option.some.inj hkey
      subst hk
      have hchunks : chunksSinceCipher s = reads.map DecryptedRead.chunk := by
        rw [chunksSinceCipher, hin, dropWhile_shape]
        exact DecryptedRead.chunk_events
      have hfed : fedBytes s = reads.flatMap DecryptedRead.input := by
        rw [fedBytes, hin, List.flatMap_append, flatMap_received _ fun _ => rfl]
        exact DecryptedRead.fed_events
      have hiff := DecryptedRead.input_eq_chunk_iff hwhole
      rw [FollowsCiphertext, hchunks, hfed, ← List.flatMap_def, hiff]
      simp only [List.forall_mem_map]
      refine ⟨fun h => h.1, fun hfull => ⟨hfull, fun plain hprefix => ?_⟩⟩
      -- The outputs are the decryption of the received stream, and nothing else is fresh.
      have hfresh : freshBytes s = reads.flatMap DecryptedRead.output := by
        rw [freshBytes, hin, List.flatMap_append, flatMap_received _ fun _ => rfl]
        exact DecryptedRead.fresh_eq_output hwhole hfull
      rw [hfresh, hout, hiff.mpr hfull]
      exact env.evp.decrypt_of_isPrefix hprefix

/-- A login whose shared-key packet ends at the end of the vector: its token is
padded to 4065 bytes. -/
def fillingLogin : List ConnectionEvent :=
  loginEvents 51 ([1, 2, 3, 4] ++ List.replicate 4061 0)

/-- A read that fills the whole vector is decrypted as the peer encrypted it:
under the key of `fillingLogin`, the first byte is one and the others are zero. -/
theorem followsCiphertext_iff_whole_read : ∃ s : Connection Byte,
    GuardedRun (step chainEnvironment) Unguarded (create 0)
        (fillingLogin ++ [.readCompleted (List.replicate 4096 6) chainAmbient]) s ∧
      inboundKey s = some (List.replicate 16 7) ∧
      (chunksSinceCipher s).map List.length = [4096] ∧
      FollowsCiphertext chainEnvironment (List.replicate 16 7) s := by
  obtain ⟨s, hrun, hkey, hlen⟩ := exists_guardedRun (step chainEnvironment) Unguarded (create 0)
      (fillingLogin ++ [.readCompleted (List.replicate 4096 6) chainAmbient])
      (fun s => inboundKey s = some (List.replicate 16 7) ∧
      (chunksSinceCipher s).map List.length = [4096]) (by decide +kernel)
  refine ⟨s, hrun, hkey, hlen, (followsCiphertext_iff hrun hkey).mpr ?_⟩
  intro chunk hmem
  have hchunk : chunk.length ∈ (chunksSinceCipher s).map List.length := List.mem_map_of_mem hmem
  rw [hlen] at hchunk
  exact List.mem_singleton.mp hchunk

/-- What a peer sends that encrypts this many zero bytes under the key of `loginEvents`. -/
def zeroCiphertext (n : Nat) : List Byte :=
  (chainCipher.encrypt (chainCipher.encryptInit (List.replicate 16 7)) (List.replicate n 0)).1

/-- Five bytes of ciphertext: the decrypt context is fed the whole vector. -/
theorem short_read_leaves_ciphertext : ∃ s : Connection Byte,
    GuardedRun (step chainEnvironment) Unguarded (create 0)
        (loginEvents 51 [1, 2, 3, 4] ++ [.readCompleted (zeroCiphertext 5) chainAmbient]) s ∧
      inboundKey s = some (List.replicate 16 7) ∧ (fedBytes s).length = 4096 ∧
      (chunksSinceCipher s).flatten = zeroCiphertext 5 ∧
      freshBytes s ≠ List.replicate 5 0 ∧
      ¬ FollowsCiphertext chainEnvironment (List.replicate 16 7) s := by
  obtain ⟨s, hrun, hkey, hfed, hchunks, hfresh⟩ := exists_guardedRun
      (step chainEnvironment) Unguarded (create 0)
      (loginEvents 51 [1, 2, 3, 4] ++ [.readCompleted (zeroCiphertext 5) chainAmbient])
      (fun s => inboundKey s = some (List.replicate 16 7) ∧ (fedBytes s).length = 4096 ∧
      (chunksSinceCipher s).flatten = zeroCiphertext 5 ∧ freshBytes s ≠ List.replicate 5 0)
    (by decide +kernel)
  refine ⟨s, hrun, hkey, hfed, hchunks, hfresh, ?_⟩
  intro h
  have hlen : 4096 = 5 :=
    calc
      4096 = (fedBytes s).length := hfed.symm
      _ = (chunksSinceCipher s).flatten.length := congrArg List.length h.1
      _ = (zeroCiphertext 5).length := congrArg List.length hchunks
      _ = (List.replicate 5 (0 : Byte)).length := StreamCipher.length_encrypt ..
      _ = 5 := List.length_replicate
  omega

end CarpetSrv.Network.Connection
