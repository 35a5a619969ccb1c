import CarpetSrv.Packet.BufferReaders

/-!
# Read safety of the buffer

A program of read operations runs on one buffer and goes on after a throw.
Every reader but `readBytes` keeps its reads inside the vector. `readBytes`
compares the declared length with the size of the whole vector instead of
with what is left after the read position, so it is safe exactly when the
lengths it accepts also fit behind the position.
-/

namespace CarpetSrv.Packet.Buffer

open Foundation Foundation.ExceptState Foundation.BigEndian

/-- The read operations of the buffer. A copy past the end of the vector finds
the memory contents `beyond`. -/
inductive ReadOp
  | readByte
  | readShort
  | readChar
  | readInt
  | readDouble
  | readBool
  | readString (maxSize : Int)
  | readBytes (beyond : Nat → Byte)

/-- The buffer after one operation, whether it returned or threw. -/
def perform : ReadOp → Buffer → Buffer
  | .readByte => after Buffer.readByte
  | .readShort => after Buffer.readShort
  | .readChar => after Buffer.readChar
  | .readInt => after Buffer.readInt
  | .readDouble => after Buffer.readDouble
  | .readBool => after Buffer.readBool
  | .readString maxSize => after (Buffer.readString maxSize)
  | .readBytes beyond => after (Buffer.readBytes beyond)

/-- The step read only below the size of the vector and left the position inside it. -/
def ReadsInBounds (b b' : Buffer) : Prop :=
  (∀ i ∈ b'.reads.drop b.reads.length, i < b.data.length) ∧ b'.readPos ≤ b'.data.length

/-- One operation is safe. A byte array it returns fits behind its length field. -/
def ReadSafe (b : Buffer) (op : ReadOp) : Prop :=
  ReadsInBounds b (perform op b) ∧
    ∀ beyond bytes, op = .readBytes beyond → returned (readBytes beyond) b = some bytes →
      b.readPos + 2 + bytes.length ≤ b.data.length

/-- Every operation of a sequence is safe in the buffer it meets. -/
def RunSafe : Buffer → List ReadOp → Prop
  | _, [] => True
  | b, op :: ops => ReadSafe b op ∧ RunSafe (perform op b) ops

/-- A byte-array length that is not above the size of the vector is not above
the number of bytes left behind it either. -/
def LengthFits (b : Buffer) : ReadOp → Prop
  | .readBytes _ => ∀ len, returned Buffer.readShort b = some len → 0 ≤ len.toInt →
      len.toInt ≤ b.data.length → b.readPos + 2 + len.toInt ≤ b.data.length
  | _ => True

/-- Every byte-array length met in a sequence of operations fits. -/
def RunFits : Buffer → List ReadOp → Prop
  | _, [] => True
  | b, op :: ops => LengthFits b op ∧ RunFits (perform op b) ops

/-- The indices recorded by an advance all lie in the vector exactly when the
advance ends in it. -/
theorem readsInBounds_advance (b : Buffer) (n : Nat) :
    ReadsInBounds b (b.advance n) ↔ b.readPos + n ≤ b.data.length := by
  have hd : (b.advance n).reads.drop b.reads.length = List.range' b.readPos n := by
    rw [ReadCursor.advance_reads, List.drop_left]
  constructor
  · intro h
    exact h.2
  · intro h
    refine ⟨fun i hi => ?_, h⟩
    rw [hd, List.mem_range'_1] at hi
    omega

theorem readsInBounds_self {b : Buffer} (h : b.readPos ≤ b.data.length) :
    ReadsInBounds b b := by
  have h0 := (readsInBounds_advance b 0).mpr h
  rwa [ReadCursor.advance_zero] at h0

theorem readsInBounds_of_within {b b' : Buffer} (hpos : b.readPos ≤ b.data.length)
    (h : b.AdvancesWithin b') : ReadsInBounds b b' := by
  obtain ⟨n, rfl, hn⟩ := h
  exact (readsInBounds_advance b n).mpr (hn hpos)

/-- The exact condition for one `readBytes`. -/
theorem readBytes_safe_iff (beyond : Nat → Byte) {b : Buffer} (hpos : b.readPos ≤ b.data.length) :
    ReadSafe b (.readBytes beyond) ↔ LengthFits b (.readBytes beyond) := by
  have happly := readBytes_apply beyond b
  have hshort := readShort_apply b
  by_cases hu : b.data.length < b.readPos + 2
  · -- the length field itself is missing, so nothing is read
    rw [if_pos hu] at hshort
    rw [hshort] at happly
    have hsafe : ReadSafe b (.readBytes beyond) := by
      refine ⟨?_, fun _ bytes heq hret => ?_⟩
      · rw [perform, after_of_error happly]
        exact readsInBounds_self hpos
      · cases heq
        rw [returned, happly] at hret
        cases hret
    have hfits : LengthFits b (.readBytes beyond) := by
      intro len hlen
      rw [returned, hshort] at hlen
      cases hlen
    exact iff_of_true hsafe hfits
  · rw [if_neg hu] at hshort
    generalize hlen : (((b.data.getD b.readPos default).setWidth 16 <<< 8) |||
      (b.data.getD (b.readPos + 1) default).setWidth 16) = len at hshort
    rw [hshort] at happly
    simp only [ReadCursor.advance_data, ReadCursor.advance_advance] at happly
    have hfits : LengthFits b (.readBytes beyond) ↔
        (0 ≤ len.toInt → len.toInt ≤ b.data.length →
          b.readPos + 2 + len.toInt ≤ b.data.length) := by
      simp only [LengthFits, returned, hshort, Option.some.injEq, forall_eq']
    rw [hfits]
    have hthrow : ∀ e, readBytes beyond b = .error e (b.advance 2) →
        ReadSafe b (.readBytes beyond) := by
      intro e he
      refine ⟨?_, fun _ bytes heq hret => ?_⟩
      · rw [perform, after_of_error he]
        exact (readsInBounds_advance b 2).mpr (by omega)
      · cases heq
        rw [returned, he] at hret
        cases hret
    split_ifs at happly with hneg hbig
    · exact iff_of_true (hthrow _ happly) fun h => by omega
    · exact iff_of_true (hthrow _ happly) fun _ h => by omega
    · have hrange : b.readPos + (2 + len.toInt.toNat) ≤ b.data.length ↔
          (0 ≤ len.toInt → len.toInt ≤ b.data.length →
            b.readPos + 2 + len.toInt ≤ b.data.length) := by omega
      rw [← hrange, ← readsInBounds_advance b _]
      constructor
      · intro h
        have h1 := h.1
        rwa [perform, after_of_ok happly] at h1
      · intro h
        refine ⟨by rwa [perform, after_of_ok happly], ?_⟩
        intro _ bytes heq hret
        cases heq
        rw [returned, happly] at hret
        cases hret
        have hend := (readsInBounds_advance b _).mp h
        rw [List.length_map, List.length_range']
        omega

/-- The other operations are safe wherever the position is inside the vector. -/
theorem readSafe_of_within {b : Buffer} {op : ReadOp} (hpos : b.readPos ≤ b.data.length)
    (hw : b.AdvancesWithin (perform op b)) (hop : ∀ beyond, op ≠ .readBytes beyond) :
    ReadSafe b op :=
  ⟨readsInBounds_of_within hpos hw, fun beyond _ heq => absurd heq (hop beyond)⟩

theorem readSafe_iff {b : Buffer} (hpos : b.readPos ≤ b.data.length) (op : ReadOp) :
    ReadSafe b op ↔ LengthFits b op := by
  cases op with
  | readByte => exact iff_of_true (readSafe_of_within hpos (readByte_within b) nofun) trivial
  | readShort => exact iff_of_true (readSafe_of_within hpos (readShort_within b) nofun) trivial
  | readChar => exact iff_of_true (readSafe_of_within hpos (readChar_within b) nofun) trivial
  | readInt => exact iff_of_true (readSafe_of_within hpos (readInt_within b) nofun) trivial
  | readDouble => exact iff_of_true (readSafe_of_within hpos (readDouble_within b) nofun) trivial
  | readBool => exact iff_of_true (readSafe_of_within hpos (readBool_within b) nofun) trivial
  | readString n =>
      exact iff_of_true (readSafe_of_within hpos (readString_within n b) nofun) trivial
  | readBytes beyond => exact readBytes_safe_iff beyond hpos

/-- A sequence of read operations stays inside the vector exactly when every
byte-array length it accepts fits into what is left. -/
theorem runSafe_iff_runFits (b : Buffer) (ops : List ReadOp) (hpos : b.readPos ≤ b.data.length) :
    RunSafe b ops ↔ RunFits b ops := by
  induction ops generalizing b with
  | nil => exact Iff.rfl
  | cons op ops ih =>
      rw [RunSafe, RunFits, ← readSafe_iff hpos op]
      apply and_congr_right
      intro hsafe
      exact ih (perform op b) hsafe.1.2

/-- A byte, then a one-byte array that fits exactly. -/
theorem runSafe_iff_runFits_exact_fit :
    RunSafe ⟨[0x07, 0x00, 0x01, 0x2A], 0, []⟩ [.readByte, .readBytes fun _ => 0xAA] := by
  refine (runSafe_iff_runFits _ _ (by decide)).mpr ⟨trivial, ?_, trivial⟩
  rintro len hlen _ _
  cases hlen
  decide

/-- The declared length 1 is not above the size 2 of the vector, and no byte is
left behind it: the copy reads index 2 and the position becomes 3. -/
theorem readBytes_reads_past_end :
    ¬ ∀ (b : Buffer) (ops : List ReadOp), b.readPos ≤ b.data.length → RunSafe b ops := by
  intro h
  have hsafe := h ⟨[0x00, 0x01], 0, []⟩ [.readBytes fun _ => 0xAA] (by decide)
  have hpos : (perform (.readBytes fun _ => 0xAA) ⟨[0x00, 0x01], 0, []⟩).readPos ≤ 2 :=
    hsafe.1.1.2
  exact absurd hpos (by decide)

end CarpetSrv.Packet.Buffer
