import Mathlib.Tactic.Common

/-!
# Big-endian bytes of a bit vector

`toBytes k v` lists the `k` low bytes of `v`, most significant first, and
`ofBytes` folds a list of bytes back into a word. Folding the listed bytes
recovers every word that fits into them, and listing a folded word recovers
all bytes that fit into it.
-/

namespace Foundation.BigEndian

variable {w : Nat}

/-- The `k` low bytes of a word, most significant byte first. -/
def toBytes : Nat → BitVec w → List (BitVec 8)
  | 0, _ => []
  | k + 1, v => (v >>> (8 * k)).setWidth 8 :: toBytes k v

/-- Shift one more byte into the low end of a word. -/
def pushByte (acc : BitVec w) (byte : BitVec 8) : BitVec w :=
  (acc <<< 8) ||| byte.setWidth w

/-- Fold bytes into a word, most significant byte first. -/
def ofBytes (w : Nat) (bytes : List (BitVec 8)) : BitVec w :=
  bytes.foldl pushByte 0

@[simp] theorem length_toBytes (k : Nat) (v : BitVec w) : (toBytes k v).length = k := by
  induction k with
  | zero => rfl
  | succ k ih => simp [toBytes, ih]

theorem getLast?_toBytes (k : Nat) (v : BitVec w) :
    (toBytes (k + 1) v).getLast? = some (v.setWidth 8) := by
  induction k with
  | zero => simp [toBytes]
  | succ k ih => rw [toBytes, List.getLast?_cons, ih, Option.getD_some]

/-- Pushing the low byte of a word onto its remaining bits restores the word. -/
theorem pushByte_shift (x : BitVec w) : pushByte (x >>> 8) (x.setWidth 8) = x := by
  apply BitVec.eq_of_getLsbD_eq
  intro i hi
  simp only [pushByte, BitVec.getLsbD_or, BitVec.getLsbD_shiftLeft, BitVec.getLsbD_ushiftRight,
    BitVec.getLsbD_setWidth, hi, decide_true, Bool.true_and]
  by_cases h8 : i < 8
  · simp [h8]
  · have hi8 : 8 + (i - 8) = i := by omega
    simp [h8, hi8]

theorem foldl_toBytes (k : Nat) (v : BitVec w) :
    (toBytes k v).foldl pushByte (v >>> (8 * k)) = v := by
  induction k with
  | zero => simp [toBytes]
  | succ k ih =>
      have hshift : v >>> (8 * (k + 1)) = (v >>> (8 * k)) >>> 8 := by
        rw [← BitVec.shiftRight_add, Nat.mul_succ]
      calc
        (toBytes (k + 1) v).foldl pushByte (v >>> (8 * (k + 1))) =
            (toBytes k v).foldl pushByte
              (pushByte (v >>> (8 * k) >>> 8) ((v >>> (8 * k)).setWidth 8)) := by
          rw [toBytes, List.foldl_cons, hshift]
        _ = (toBytes k v).foldl pushByte (v >>> (8 * k)) := by rw [pushByte_shift]
        _ = v := ih

/-- A word that fits into `k` bytes is recovered from them. -/
theorem ofBytes_toBytes (k : Nat) (v : BitVec w) (hw : w ≤ 8 * k) :
    ofBytes w (toBytes k v) = v := by
  have hz : v >>> (8 * k) = 0 := by
    apply BitVec.eq_of_getLsbD_eq
    intro i hi
    have hv : v.getLsbD (8 * k + i) = false := BitVec.getLsbD_of_ge v _ (by omega)
    simp [hv]
  have h := foldl_toBytes k v
  rwa [hz] at h

theorem getLsbD_pushByte (acc : BitVec w) (byte : BitVec 8) {i : Nat} (hi : i < w) :
    (pushByte acc byte).getLsbD i = if i < 8 then byte.getLsbD i else acc.getLsbD (i - 8) := by
  simp only [pushByte, BitVec.getLsbD_or, BitVec.getLsbD_shiftLeft, BitVec.getLsbD_setWidth, hi,
    decide_true, Bool.true_and]
  by_cases h8 : i < 8
  · simp [h8]
  · have hge : byte.getLsbD i = false := BitVec.getLsbD_of_ge byte i (by omega)
    simp [h8, hge]

/-- The bits above the folded bytes are those of the initial word. -/
theorem getLsbD_foldl (bytes : List (BitVec 8)) (acc : BitVec w) {i : Nat}
    (hi : 8 * bytes.length + i < w) :
    (bytes.foldl pushByte acc).getLsbD (8 * bytes.length + i) = acc.getLsbD i := by
  induction bytes generalizing acc i with
  | nil => simp
  | cons byte bytes ih =>
      rw [List.length_cons] at hi
      have hindex : 8 * (byte :: bytes).length + i = 8 * bytes.length + (8 + i) := by
        rw [List.length_cons]
        omega
      rw [hindex, List.foldl_cons, ih _ (by omega), getLsbD_pushByte _ _ (by omega),
        if_neg (by omega), Nat.add_sub_cancel_left]

theorem toBytes_foldl (bytes : List (BitVec 8)) (acc : BitVec w) (h : 8 * bytes.length ≤ w) :
    toBytes bytes.length (bytes.foldl pushByte acc) = bytes := by
  induction bytes generalizing acc with
  | nil => rfl
  | cons byte bytes ih =>
      rw [List.length_cons] at h
      rw [List.length_cons, toBytes, List.foldl_cons, ih _ (by omega)]
      congr 1
      apply BitVec.eq_of_getLsbD_eq
      intro i hi
      simp only [BitVec.getLsbD_setWidth, hi, decide_true, Bool.true_and,
        BitVec.getLsbD_ushiftRight]
      rw [getLsbD_foldl _ _ (by omega), getLsbD_pushByte _ _ (by omega), if_pos hi]

/-- Bytes that fit into a word are listed by the word they fold into. -/
theorem toBytes_ofBytes (bytes : List (BitVec 8)) (h : 8 * bytes.length ≤ w) :
    toBytes bytes.length (ofBytes w bytes) = bytes :=
  toBytes_foldl bytes 0 h

/-- Any bytes that fit into a word are the bytes of a word. -/
theorem exists_toBytes {k : Nat} (bytes : List (BitVec 8)) (hw : 8 * k ≤ w)
    (h : k ≤ bytes.length) : ∃ (v : BitVec w) (tail : List (BitVec 8)),
      bytes = toBytes k v ++ tail := by
  have hlen : (bytes.take k).length = k := List.length_take_of_le h
  have hword := toBytes_ofBytes (w := w) (bytes.take k) (by omega)
  rw [hlen] at hword
  exact ⟨ofBytes w (bytes.take k), bytes.drop k, by rw [hword, List.take_append_drop]⟩

end Foundation.BigEndian
