import CarpetSrv.Foundation.CipherFeedback
import CarpetSrv.Network.InboundCipher
import Mathlib.Data.List.Chain

/-!
# Resynchronisation of the inbound cipher

`handle_read` feeds the decrypt context with the whole vector, so that a read
that does not fill the vector finds the context at a wrong place. The cipher is
AES in CFB8 mode, whose register holds the last 16 bytes of ciphertext. Each
read is therefore decrypted as the peer encrypted it behind its first 16 bytes,
however the stream was cut.

## Implementation notes

One block of AES is an arbitrary function. The events of a read stand next to
each other in the history, and what they say about each other is stated for
such pairs.
-/

namespace CarpetSrv.Network.Connection

open Foundation Foundation.ExceptState Packet Utils Buffer CipherFeedback

/-! ## AES-128-CFB8 -/

/-- AES-128-CFB8 with the key as its initial vector. `block` is the first byte
of a block of AES. -/
def cfb8 (block : List Byte → List Byte → Byte) : CipherFeedback (List Byte) Byte where
  initial key := key
  pad := block
  combine x p := x ^^^ p
  combine_combine x p := by rw [BitVec.xor_assoc, BitVec.xor_self, BitVec.xor_zero]

/-- The environment whose EVP cipher is AES-128-CFB8. -/
def cfb8Environment (keypair : KeyPair) (order : Equiv.Perm (Fin 3))
    (block : List Byte → List Byte → Byte) : Environment (Context (List Byte) Byte) :=
  ⟨keypair, (cfb8 block).toStreamCipher, order⟩

variable {κ : Type}

/-! ## Reads that are decrypted where they arrived -/

namespace InboundEvent

/-- A decryption behind a received chunk has the chunk at the filled positions. -/
def Fits : InboundEvent → InboundEvent → Prop
  | .received chunk, .decrypted offset size input _ =>
      size = chunk.length ∧ (input.drop offset).take size = chunk
  | _, _ => True

/-- The bytes that one read filled, as the handlers find them. -/
def freshRead : InboundEvent → Option (List Byte)
  | .decrypted offset size _ output => some ((output.drop offset).take size)
  | _ => none

end InboundEvent

/-- What `process_packets` finds at the positions that each read filled, for the
reads since the cipher was installed. -/
def freshReads (s : Connection κ) : List (List Byte) :=
  (inbound s).filterMap InboundEvent.freshRead

/-- Every decryption has its chunk, and every installed key has 16 bytes. -/
structure Placed (es : List InboundEvent) : Prop where
  fits : es.IsChain InboundEvent.Fits
  keys : ∀ key, .installed key ∈ es → key.length = 16

theorem Placed.of_eq {es es' : List InboundEvent} (h : Placed es) (he : es' = es) : Placed es' :=
  he ▸ h

section Methods

variable (env : Environment κ) {s : Connection κ}

theorem inbound_addPacketToQueue (packet : Packet) :
    inbound (addPacketToQueue env packet s) = inbound s :=
  (observe_addPacketToQueue env packet s fun _ _ => rfl).trans (List.append_nil _)

theorem inbound_disconnectWith (reason : UTF16String) :
    inbound (disconnectWith env reason s) = inbound s := by
  refine (observe_disconnectWith env reason s (fun _ _ => rfl) rfl).trans ?_
  simp only [InboundEvent.ofEffect, Option.toList_none, List.append_nil]
  rfl

theorem inbound_versionChecked (p : ClientProtocolPacket) :
    inbound (versionChecked env p s) = inbound s := by
  refine versionChecked_keeps (I := fun t => inbound t = inbound s) ?_ ?_ rfl
  · intro t f h
    exact (observe_usePlayer f t rfl).trans h
  · intro reason _
    exact inbound_disconnectWith env reason

/-- One more event. A decryption has to fit the chunk in front of it. -/
theorem Placed.concat {es : List InboundEvent} (h : Placed es) {e : InboundEvent}
    (hfits : ∀ x ∈ es.getLast?, InboundEvent.Fits x e)
    (hkey : ∀ key, e = .installed key → key.length = 16) : Placed (es ++ [e]) where
  fits := by
    refine List.isChain_append.mpr ⟨h.fits, List.isChain_singleton _, ?_⟩
    intro x hx y hy
    cases hy
    exact hfits x hx
  keys k hk := by
    rcases List.mem_append.mp hk with hold | hnew
    · exact h.keys k hold
    · exact hkey k (List.mem_singleton.mp hnew).symm

theorem Placed.handleWrite (failed : Bool) (size : Nat) (h : Placed (inbound s)) :
    Placed (inbound (handleWrite failed size s)) :=
  h.of_eq (observe_handleWrite rfl rfl failed size s)

/-- A handler adds nothing to the reading side but the installation of a key. -/
theorem placed_handlerClosed :
    HandlerClosed env AnyPacket fun s => Placed (inbound s) where
  readBuffer _ h := h
  dispatched _ h := h.of_eq (observe_emit_none rfl _)
  pinged {_ p s} _ _ h := by
    apply h.of_eq
    refine (observe_pinged env s (fun _ _ => rfl) p).trans ?_
    simp [InboundEvent.ofEffect, inbound]
  unseeded _ _ _ h := h.of_eq (inbound_versionChecked ..)
  greeted {_ p s token} _ _ _ h := by
    apply h.of_eq
    refine (observe_greeted env s (fun _ _ => rfl) token p).trans ?_
    rw [← inbound_versionChecked env p]
    simp [InboundEvent.ofEffect, inbound]
  badKey {_ p s} _ _ _ h := h.of_eq (observe_tokenChecked s rfl p)
  loggedIn {_ p s} _ _ hlen h := by
    have hadd : inbound (loggedIn env (cipherOf env p.sharedSecret) p s) =
        inbound s ++ [.installed p.sharedSecret] := by
      refine (observe_loggedIn env s (fun _ _ => rfl) _ p).trans ?_
      rw [observe_tokenChecked s rfl]
      simp [InboundEvent.ofEffect, inbound]
    rw [hadd]
    refine h.concat (fun x _ => by cases x <;> trivial) ?_
    rintro key ⟨⟩
    exact hlen
  informed _ h := h.of_eq ((observe_emit_none rfl _).trans (observe_usePlayer _ _ rfl))
  keptAlive _ h := h.of_eq (observe_emit_none rfl _)
  positioned _ h := h.of_eq ((observe_emit_none rfl _).trans (observe_usePlayer _ _ rfl))

end Methods

section Read

variable {env : Environment κ} {s t : Connection κ} {bytes : List Byte}

/-- The chunk stands in the vector where the read was posted. -/
theorem receive_fits (hp : Posted s) :
    ((receive bytes s).readBuffer.data.drop s.readBuffer.readPos).take bytes.length = bytes := by
  have hlen : (s.readBuffer.data.take s.readBuffer.readPos).length = s.readBuffer.readPos := by
    rw [List.length_take, hp.1]
    exact Nat.min_eq_left (Nat.le_of_lt hp.2)
  simp only [receive, emit_readBuffer, List.append_assoc]
  rw [List.drop_left' hlen, List.take_left]

theorem Placed.received (hp : Posted s) (h : Placed (inbound s)) :
    Placed (inbound (decryptReadBuffer env bytes.length (receive bytes s))) := by
  have hchunk : Placed (inbound s ++ [.received bytes]) :=
    h.concat (fun x _ => by cases x <;> trivial) (fun key hkey => by cases hkey)
  cases hc : s.cipher with
  | none =>
      rw [decryptReadBuffer_of_none _ _ (s := receive bytes s) hc, inbound_receive]
      exact hchunk
  | some c =>
      have hsome : (receive bytes s).cipher = some c := hc
      have hadd : inbound (decryptReadBuffer env bytes.length (receive bytes s)) =
          inbound s ++ [.received bytes] ++
            [.decrypted s.readBuffer.readPos bytes.length (receive bytes s).readBuffer.data
              (env.evp.decrypt c.decryptCtx (receive bytes s).readBuffer.data).1] := by
        rw [decryptReadBuffer, hsome, ← inbound_receive]
        exact observe_emit InboundEvent.ofEffect _ _
      rw [hadd]
      refine hchunk.concat ?_ (fun key hkey => by cases hkey)
      intro x hx
      rw [List.getLast?_concat] at hx
      cases hx
      exact ⟨rfl, receive_fits hp⟩

theorem Placed.step {e : ConnectionEvent} (hready : ReadReady s) (hstep : step env s e = some t)
    (h : Placed (inbound s)) : Placed (inbound t) := by
  cases step_cases hstep with
  | handleConnection _ _ => exact h.of_eq (observe_emit_none rfl _)
  | @readCompleted bytes ambient hr _ =>
      have hprocessed : Placed (inbound (processPackets env ambient bytes.length
          (decryptReadBuffer env bytes.length (receive bytes s)))) :=
        (placed_handlerClosed env).processPackets (eachPacket_anyPacket ..)
          (h.received (hready.posted hr))
      exact hprocessed.of_eq (observe_emit_none rfl _)
  | readFailed _ => exact h
  | writeCompleted _ _ =>
      exact Placed.handleWrite _ _ (h.of_eq (observe_emit_none rfl _))
  | writeFailed _ => exact h.of_eq (observe_handleWrite rfl rfl ..)
  | sendKeepAlive =>
      apply sendKeepAlive_keeps (I := fun t => Placed (inbound t))
      · exact fun _ => h.of_eq (inbound_disconnectWith ..)
      · exact h.of_eq (observe_emit_none rfl _)
      · exact h
  | kickPlayer => exact h.of_eq (inbound_disconnectWith ..)
  | addPacketToQueue => exact h.of_eq (inbound_addPacketToQueue ..)

end Read

/-! ## Every read behind its first 16 bytes -/

/-- Cut a stream into pieces as long as the chunks. -/
def piecesLike : List (List Byte) → List Byte → List (List Byte)
  | [], _ => []
  | chunk :: chunks, stream =>
      stream.take chunk.length :: piecesLike chunks (stream.drop chunk.length)

namespace DecryptedRead

variable {block : List Byte → List Byte → Byte} {reads : List DecryptedRead}

/-- What the handlers find at the positions that the read filled. -/
def fresh (r : DecryptedRead) : List Byte := (r.output.drop r.offset).take r.chunk.length

/-- The chunk stands in the decrypted vector. -/
def Located (r : DecryptedRead) : Prop := (r.input.drop r.offset).take r.chunk.length = r.chunk

/-- As many bytes are fresh as have arrived. -/
theorem Whole.length_fresh {r : DecryptedRead} (hw : r.Whole) (hl : r.Located) :
    r.fresh.length = r.chunk.length := by
  have hlen := congrArg List.length hl
  rw [List.length_take, List.length_drop, hw.input] at hlen
  rw [fresh, List.length_take, List.length_drop, hw.output, hlen]

theorem freshRead_events :
    (reads.flatMap events).filterMap InboundEvent.freshRead = reads.map fresh := by
  induction reads with
  | nil => rfl
  | cons r reads ih =>
      rw [List.flatMap_cons, List.filterMap_append, ih]
      rfl

theorem located_of_isChain (h : (reads.flatMap events).IsChain InboundEvent.Fits) :
    ∀ r ∈ reads, r.Located := by
  induction reads with
  | nil => exact nofun
  | cons r reads ih =>
      rw [List.flatMap_cons, List.isChain_append] at h
      intro r' hr'
      rcases List.mem_cons.mp hr' with rfl | hmem
      · exact (List.isChain_cons_cons.mp h.1).1.2
      · exact ih h.2.1 r' hmem

/-- The fresh bytes of a read are the decryption of its chunk, from some register. -/
theorem fresh_eq_decrypt {ctx : Context (List Byte) Byte} {r : DecryptedRead}
    (hl : r.Located) (ho : r.output = ((cfb8 block).toStreamCipher.decrypt ctx r.input).1) :
    r.fresh = ((cfb8 block).toStreamCipher.decrypt (ctx.feed (r.input.take r.offset))
      r.chunk).1 := by
  conv_rhs => rw [← hl]
  rw [StreamCipher.decrypt_take, fresh, ho, StreamCipher.decrypt_drop, decrypt_ctx]

/-- Each read of a list that one context decrypts is decrypted as the peer
encrypted it, behind the first 16 bytes. -/
theorem fresh_resynchronises {key plain : List Byte} (hkey : key.length = 16)
    {ctx : Context (List Byte) Byte} (hk : ctx.key = key) (hw : ctx.register.length = 16)
    (hwhole : ∀ r ∈ reads, r.Whole) (hloc : ∀ r ∈ reads, r.Located)
    (hout : reads.flatMap output =
      ((cfb8 block).toStreamCipher.decrypt ctx (reads.flatMap input)).1)
    {before : List Byte} (hsent : before ++ reads.flatMap chunk <+:
      ((cfb8 block).toStreamCipher.encrypt
        ((cfb8 block).toStreamCipher.encryptInit key) plain).1) :
    (reads.map fresh).map (List.drop 16) =
      (piecesLike (reads.map chunk) (plain.drop before.length)).map (List.drop 16) := by
  induction reads generalizing ctx before with
  | nil => rfl
  | cons r reads ih =>
      have hr := hwhole r List.mem_cons_self
      have hwidth : ((cfb8 block).initial key).length = 16 := hkey
      rw [List.flatMap_cons, List.flatMap_cons, StreamCipher.decrypt_append] at hout
      obtain ⟨hfirst, hrest⟩ := List.append_inj hout (by
        rw [StreamCipher.length_decrypt, hr.input, hr.output])
      rw [List.flatMap_cons, ← List.append_assoc] at hsent
      have hfresh : r.fresh.drop 16 =
          ((plain.drop before.length).take r.chunk.length).drop 16 := by
        rw [fresh_eq_decrypt (hloc r List.mem_cons_self) hfirst, ← hwidth]
        apply (cfb8 block).decrypt_resynchronises
        · rw [Context.feed_key, hk]
        · rw [Context.length_feed_register, hw, hwidth]
        · exact (List.prefix_append _ _).trans hsent
      have htail : (reads.map fresh).map (List.drop 16) =
          (piecesLike (reads.map chunk) (plain.drop (before ++ r.chunk).length)).map
            (List.drop 16) := by
        refine ih ?_ ?_ (fun r h => hwhole r (List.mem_cons_of_mem _ h))
          (fun r h => hloc r (List.mem_cons_of_mem _ h)) hrest hsent
        · rw [decrypt_ctx, Context.feed_key, hk]
        · rw [decrypt_ctx, Context.length_feed_register, hw]
      rw [List.length_append, ← List.drop_drop] at htail
      simp only [List.map_cons, piecesLike, hfresh, htail]

end DecryptedRead

/-- In every run with AES-128-CFB8, where the chunks that arrived since the
installation of the cipher are a part of the peer's ciphertext, each of them is
handed to the handlers as the same part of the plaintext, except for at most
its first 16 bytes. -/
theorem reads_resynchronise {keypair : KeyPair} {order : Equiv.Perm (Fin 3)}
    {block : List Byte → List Byte → Byte} {now : Int} {es : List ConnectionEvent}
    {s : Connection (Context (List Byte) Byte)} {key plain : List Byte}
    (run : GuardedRun (step (cfb8Environment keypair order block)) Unguarded (create now) es s)
    (hkey : inboundKey s = some key)
    (hsent : (chunksSinceCipher s).flatten <+:
      ((cfb8 block).toStreamCipher.encrypt
        ((cfb8 block).toStreamCipher.encryptInit key) plain).1) :
    (freshReads s).map List.length = (chunksSinceCipher s).map List.length ∧
      (freshReads s).map (List.drop 16) =
        (piecesLike (chunksSinceCipher s) plain).map (List.drop 16) := by
  have hinv : ReadReady s ∧ Deciphering (cfb8Environment keypair order block) s ∧
      Placed (inbound s) :=
    run.invariant
      (I := fun s => ReadReady s ∧ Deciphering (cfb8Environment keypair order block) s ∧
        Placed (inbound s))
      (fun _ _ _ _ hstep h => ⟨ReadReady.step hstep h.1, Deciphering.step h.1 hstep h.2.1,
        Placed.step h.1 hstep h.2.2⟩)
      ⟨.of_create now, .plain [] rfl rfl, List.IsChain.nil, nofun⟩
  obtain ⟨_, hdec, hplaced⟩ := hinv
  cases hdec with
  | plain early _ hin =>
      rw [inboundKey, hin] at hkey
      have hnone : (early.map InboundEvent.received).findSome? InboundEvent.key = none := by
        simp [InboundEvent.key]
      cases hnone.symm.trans hkey
  | keyed early k reads _ hin _ hout hwhole =>
      have hk : k = key := by
        rw [inboundKey, hin, findSome?_shape] at hkey
        exact Option.some.inj hkey
      subst hk
      have hchunks : chunksSinceCipher s = reads.map DecryptedRead.chunk := by
        rw [chunksSinceCipher, hin, dropWhile_shape]
        exact DecryptedRead.chunk_events
      have hreads : freshReads s = reads.map DecryptedRead.fresh := by
        have hearly : (early.map InboundEvent.received).filterMap InboundEvent.freshRead = [] := by
          simp [InboundEvent.freshRead]
        rw [freshReads, hin, List.filterMap_append, hearly]
        exact DecryptedRead.freshRead_events
      rw [hin] at hplaced
      have hlen : k.length = 16 := hplaced.keys k (by simp)
      have hloc : ∀ r ∈ reads, r.Located := by
        apply DecryptedRead.located_of_isChain
        exact (List.isChain_append.mp hplaced.fits).2.1.tail
      rw [hchunks, ← List.flatMap_def] at hsent
      rw [hchunks, hreads]
      constructor
      · simp only [List.map_map]
        refine List.map_congr_left fun r hr => ?_
        exact (hwhole r hr).length_fresh (hloc r hr)
      · have hstart : [] ++ reads.flatMap DecryptedRead.chunk <+: _ := hsent
        exact DecryptedRead.fresh_resynchronises hlen rfl hlen hwhole hloc hout hstart

/-- A block function that depends on the key and on both ends of the register. -/
def mixingBlock (key register : List Byte) : Byte :=
  key.headD 0 ^^^ register.headD 0 ^^^ register.getLastD 0

/-- What a peer sends that encrypts 40 zero bytes under the key of `loginEvents`. -/
def fortyZeros : List Byte :=
  ((cfb8 mixingBlock).toStreamCipher.encrypt
    ((cfb8 mixingBlock).toStreamCipher.encryptInit (List.replicate 16 7)) (List.replicate 40 0)).1

/-- The ciphertext arrives in two reads. The second is right behind 16 bytes. -/
theorem reads_resynchronise_two : ∃ s : Connection (Context (List Byte) Byte),
    GuardedRun (step (cfb8Environment chainEnvironment.keypair leftToRight mixingBlock))
        Unguarded (create 0)
        (loginEvents 51 [1, 2, 3, 4] ++ [.readCompleted (fortyZeros.take 5) chainAmbient,
          .readCompleted (fortyZeros.drop 5) chainAmbient]) s ∧
      freshReads s ≠ piecesLike (chunksSinceCipher s) (List.replicate 40 0) ∧
      (freshReads s).map (List.drop 16) = [[], List.replicate 19 0] := by
  obtain ⟨s, hrun, hkey, hchunks, hwrong⟩ := exists_guardedRun
    (step (cfb8Environment chainEnvironment.keypair leftToRight mixingBlock)) Unguarded (create 0)
    (loginEvents 51 [1, 2, 3, 4] ++ [.readCompleted (fortyZeros.take 5) chainAmbient,
      .readCompleted (fortyZeros.drop 5) chainAmbient])
    (fun s => inboundKey s = some (List.replicate 16 7) ∧
      chunksSinceCipher s = [fortyZeros.take 5, fortyZeros.drop 5] ∧
      freshReads s ≠ piecesLike [fortyZeros.take 5, fortyZeros.drop 5] (List.replicate 40 0))
    (by decide +kernel)
  have hsent : (chunksSinceCipher s).flatten <+: fortyZeros := by
    rw [hchunks]
    simp
  obtain ⟨_, hfresh⟩ := reads_resynchronise hrun hkey hsent
  rw [hchunks] at hfresh
  refine ⟨s, hrun, ?_⟩
  rw [hchunks]
  exact ⟨hwrong, hfresh.trans (by decide)⟩

end CarpetSrv.Network.Connection
