import CarpetSrv.Foundation.ReadFrontier
import CarpetSrv.Packet.FieldSequence
import CarpetSrv.Packet.Packets

/-!
# Fields that have arrived

The readers of a buffer compare with the size of its vector, of which only the
part before a frontier holds received bytes. `Arrived` says of a field that its
bytes, with those that its length field asks for, stand before the frontier, or
that its reader throws before it takes others. A reader is confined to the
received bytes on the fields that have arrived.
-/

namespace CarpetSrv.Packet

open Foundation Foundation.ExceptState Buffer

/-- The short at the read position. -/
def shortAt (b : Buffer) : Short :=
  ((b.data.getD b.readPos default).setWidth 16 <<< 8) |||
    (b.data.getD (b.readPos + 1) default).setWidth 16

section Arrived

variable (frontier : Nat) (next : Buffer → Prop)

/-- A number of 16-bit units. -/
def UnitsArrived : Nat → Buffer → Prop
  | 0 => next
  | n + 1 => Chunk frontier 2 (UnitsArrived n)

/-- The units behind the length field of a string. -/
def StringArrived (maxSize : Int) (stringLen : Short) : Buffer → Prop :=
  if stringLen.toInt > maxSize ∨ stringLen.toInt < 0 then next
  else UnitsArrived frontier next stringLen.toInt.toNat

/-- The bytes behind the length field of a byte array, if the length is accepted. -/
def ArrayArrived (len : Short) (b : Buffer) : Prop :=
  0 ≤ len.toInt → len.toInt ≤ b.data.length →
    b.readPos + len.toInt.toNat ≤ frontier ∧ next (b.advance len.toInt.toNat)

/-- A field has arrived, and `next` holds behind it. -/
def FieldType.Arrived : FieldType → Buffer → Prop
  | byte | bool => Chunk frontier 1 next
  | short | char => Chunk frontier 2 next
  | int => Chunk frontier 1 (Chunk frontier 1 (Chunk frontier 1 (Chunk frontier 1 next)))
  | double => Chunk frontier 8 next
  | string maxSize => fun b =>
      Chunk frontier 2 (StringArrived frontier next maxSize (shortAt b)) b
  | bytes => fun b => Chunk frontier 2 (ArrayArrived frontier next (shortAt b)) b

/-- Fields have arrived one behind the other. -/
def ArrivedAll (frontier : Nat) : List FieldType → Buffer → Prop
  | [] => fun _ => True
  | type :: types => type.Arrived frontier (ArrivedAll frontier types)

end Arrived

section Decidable

variable (frontier : Nat) (next : Buffer → Prop) [DecidablePred next]

instance decidableUnitsArrived : ∀ n, DecidablePred (UnitsArrived frontier next n)
  | 0 => inferInstanceAs (DecidablePred next)
  | n + 1 =>
      have := decidableUnitsArrived n
      inferInstanceAs (DecidablePred (Chunk frontier 2 (UnitsArrived frontier next n)))

instance (maxSize : Int) (stringLen : Short) :
    DecidablePred (StringArrived frontier next maxSize stringLen) := fun b =>
  if h : stringLen.toInt > maxSize ∨ stringLen.toInt < 0 then
    decidable_of_iff (next b) (by rw [StringArrived, if_pos h])
  else
    decidable_of_iff (UnitsArrived frontier next stringLen.toInt.toNat b)
      (by rw [StringArrived, if_neg h])

instance (len : Short) : DecidablePred (ArrayArrived frontier next len) := fun b =>
  inferInstanceAs (Decidable (0 ≤ len.toInt → len.toInt ≤ b.data.length → _ ∧ next _))

instance : ∀ type : FieldType, DecidablePred (type.Arrived frontier next)
  | .byte | .bool => inferInstanceAs (DecidablePred (Chunk frontier 1 next))
  | .short | .char => inferInstanceAs (DecidablePred (Chunk frontier 2 next))
  | .int => inferInstanceAs (DecidablePred
      (Chunk frontier 1 (Chunk frontier 1 (Chunk frontier 1 (Chunk frontier 1 next)))))
  | .double => inferInstanceAs (DecidablePred (Chunk frontier 8 next))
  | .string _ => fun _ => inferInstanceAs (Decidable (Chunk frontier 2 _ _))
  | .bytes => fun _ => inferInstanceAs (Decidable (Chunk frontier 2 _ _))

instance decidableArrivedAll (frontier : Nat) :
    ∀ types, DecidablePred (ArrivedAll frontier types)
  | [] => fun _ => .isTrue trivial
  | type :: types =>
      have := decidableArrivedAll frontier types
      inferInstanceAs (DecidablePred (type.Arrived frontier (ArrivedAll frontier types)))

end Decidable

/-! ## Readers of arrived fields -/

variable {frontier : Nat} {next : Buffer → Prop} {b : Buffer}

theorem readByte_confined (hb : b.readPos ≤ frontier)
    (h : FieldType.byte.Arrived frontier next b) :
    Confined frontier readByte (fun _ => next) b := by
  have hr : readByte b = if b.data.length < b.readPos + 1 then .error .bufferUnderflow b
      else .ok (b.data.getD b.readPos default) (b.advance 1) := by
    rw [readByte_apply]
    simp only [Nat.lt_succ_iff]
  exact .of_chunk hr hb h

theorem readShort_confined {post : Short → Buffer → Prop} (hb : b.readPos ≤ frontier)
    (h : Chunk frontier 2 (post (shortAt b)) b) : Confined frontier readShort post b :=
  .of_chunk (readShort_apply b) hb h

theorem readChar_confined (hb : b.readPos ≤ frontier)
    (h : FieldType.char.Arrived frontier next b) :
    Confined frontier readChar (fun _ => next) b := by
  have hs : Confined frontier readShort (fun _ => next) b := readShort_confined hb h
  exact hs.bind fun _ _ hb' hn => .pure hb' hn

theorem readBool_confined (hb : b.readPos ≤ frontier)
    (h : FieldType.bool.Arrived frontier next b) :
    Confined frontier readBool (fun _ => next) b :=
  (readByte_confined hb h).bind fun _ _ hb' hn => .pure hb' hn

theorem readInt_confined (hb : b.readPos ≤ frontier)
    (h : FieldType.int.Arrived frontier next b) :
    Confined frontier readInt (fun _ => next) b := by
  apply (readByte_confined hb h).bind
  intro _ _ hb₁ h₁
  apply (readByte_confined hb₁ h₁).bind
  intro _ _ hb₂ h₂
  apply (readByte_confined hb₂ h₂).bind
  intro _ _ hb₃ h₃
  apply (readByte_confined hb₃ h₃).bind
  intro _ _ hb₄ hn
  exact .pure hb₄ hn

/-- The loop of `readDouble` takes its bytes without a check. -/
theorem readRaw_ok (n : Nat) (raw : Double) (b : Buffer) :
    ∃ value, readRaw n raw b = .ok value (b.advance n) := by
  induction n generalizing raw b with
  | zero => exact ⟨raw, by rw [ReadCursor.advance_zero]; rfl⟩
  | succ n ih =>
      obtain ⟨value, hvalue⟩ := ih _ (b.advance 1)
      refine ⟨value, ?_⟩
      rw [readRaw, bind_of_ok (next_apply b), hvalue, ReadCursor.advance_advance, Nat.add_comm]

theorem readDouble_confined (hb : b.readPos ≤ frontier)
    (h : FieldType.double.Arrived frontier next b) :
    Confined frontier readDouble (fun _ => next) b := by
  obtain ⟨value, hvalue⟩ := readRaw_ok 8 0 b
  have hr : readDouble b = if b.data.length < b.readPos + 8 then .error .bufferUnderflow b
      else .ok value (b.advance 8) := by
    simp only [readDouble, bind_apply, get_apply, ite_run, throw_apply, hvalue, gt_iff_lt]
  exact .of_chunk hr hb h

theorem readChars_confined {n : Nat} (result : CppString) (hb : b.readPos ≤ frontier)
    (h : UnitsArrived frontier next n b) :
    Confined frontier (readChars n result) (fun _ => next) b := by
  induction n generalizing result b with
  | zero => exact .pure hb h
  | succ n ih =>
      have hc : FieldType.char.Arrived frontier (UnitsArrived frontier next n) b := h
      exact (readChar_confined hb hc).bind fun _ _ hb' hn => ih _ hb' hn

theorem readString_confined {maxSize : Int} (hb : b.readPos ≤ frontier)
    (h : (FieldType.string maxSize).Arrived frontier next b) :
    Confined frontier (readString maxSize) (fun _ => next) b := by
  have hs : Confined frontier readShort (StringArrived frontier next maxSize) b :=
    readShort_confined hb h
  apply hs.bind
  intro stringLen b' hb' hrest
  unfold StringArrived at hrest
  by_cases hout : stringLen.toInt > maxSize ∨ stringLen.toInt < 0
  · rw [if_pos hout] at hrest
    split_ifs
    · exact .pure hb' hrest
    · exact .pure hb' hrest
    · omega
  · rw [if_neg hout] at hrest
    obtain ⟨hlong, hneg⟩ := not_or.mp hout
    rw [if_neg hlong, if_neg hneg]
    exact readChars_confined [] hb' hrest

theorem readBytes_confined (beyond : Nat → Byte) (hb : b.readPos ≤ frontier)
    (h : FieldType.bytes.Arrived frontier next b) :
    Confined frontier (readBytes beyond) (fun _ => next) b := by
  have hs : Confined frontier readShort (ArrayArrived frontier next) b :=
    readShort_confined hb h
  unfold Confined at hs ⊢
  rw [readBytes_apply]
  cases hr : readShort b with
  | error e b' =>
      rw [hr] at hs
      exact hs
  | ok len b' =>
      rw [hr] at hs
      dsimp only
      split_ifs with hneg hlong
      · exact hs.1
      · exact hs.1
      · exact hs.2 (Int.not_lt.mp hneg) (Int.not_lt.mp hlong)

/-! ## Readers of arrived packets -/

variable (hb : b.readPos ≤ frontier)

include hb

theorem serverPing_confined (h : ArrivedAll frontier [.byte] b) :
    Confined frontier ServerPingPacket.readData (fun _ _ => True) b := by
  apply Confined.get
  split_ifs
  · exact (readByte_confined hb h).bind fun _ _ hb' _ => .pure hb' trivial
  · exact .pure hb trivial

theorem clientProtocol_confined
    (h : ArrivedAll frontier [.byte, .string 16, .string 255, .int] b) :
    Confined frontier ClientProtocolPacket.readData (fun _ _ => True) b := by
  apply (readByte_confined hb h).bind
  intro _ _ hb₁ h₁
  apply (readString_confined hb₁ h₁).bind
  intro _ _ hb₂ h₂
  apply (readString_confined hb₂ h₂).bind
  intro _ _ hb₃ h₃
  apply (readInt_confined hb₃ h₃).bind
  intro _ _ hb₄ _
  exact .pure hb₄ trivial

omit hb in
theorem decrypt_confined (keypair : KeyPair) (encrypted : List Byte)
    (hb : b.readPos ≤ frontier) :
    Confined frontier (SharedKeyPacket.decryptWithPrivateKey keypair encrypted)
      (fun _ _ => True) b := by
  unfold SharedKeyPacket.decryptWithPrivateKey
  split
  · exact .pure hb trivial
  · exact .throw hb

theorem sharedKey_confined (keypair : KeyPair) (beyond : Nat → Byte)
    (h : ArrivedAll frontier [.bytes, .bytes] b) :
    Confined frontier (SharedKeyPacket.readData keypair beyond) (fun _ _ => True) b := by
  apply (readBytes_confined beyond hb h).bind
  intro _ _ hb₁ h₁
  apply (readBytes_confined beyond hb₁ h₁).bind
  intro _ _ hb₂ _
  apply (decrypt_confined keypair _ hb₂).bind
  intro _ _ hb₃ _
  apply (decrypt_confined keypair _ hb₃).bind
  intro _ _ hb₄ _
  exact .pure hb₄ trivial

theorem clientInfo_confined
    (h : ArrivedAll frontier [.string 7, .int, .int, .byte, .bool] b) :
    Confined frontier ClientInfoPacket.readData (fun _ _ => True) b := by
  apply (readString_confined hb h).bind
  intro _ _ hb₁ h₁
  apply (readInt_confined hb₁ h₁).bind
  intro _ _ hb₂ h₂
  apply (readInt_confined hb₂ h₂).bind
  intro _ _ hb₃ h₃
  apply (readByte_confined hb₃ h₃).bind
  intro _ _ hb₄ h₄
  apply (readBool_confined hb₄ h₄).bind
  intro _ _ hb₅ _
  exact .pure hb₅ trivial

theorem playerPosition_confined (order : Equiv.Perm (Fin 3))
    (h : ArrivedAll frontier [.double, .double, .double, .double, .bool] b) :
    Confined frontier (PlayerPositionPacket.readData order) (fun _ _ => True) b := by
  have hthree : Confined frontier (evaluate order fun _ => readDouble)
      (fun _ => ArrivedAll frontier [.double, .bool]) b := by
    rw [evaluate_three]
    apply (readDouble_confined hb h).bind
    intro _ _ hb₁ h₁
    apply (readDouble_confined hb₁ h₁).bind
    intro _ _ hb₂ h₂
    apply (readDouble_confined hb₂ h₂).bind
    intro _ _ hb₃ h₃
    exact .pure hb₃ h₃
  apply hthree.bind
  intro _ _ hb₃ h₃
  apply (readDouble_confined hb₃ h₃).bind
  intro _ _ hb₄ h₄
  apply (readBool_confined hb₄ h₄).bind
  intro _ _ hb₅ _
  exact .pure hb₅ trivial

end CarpetSrv.Packet
