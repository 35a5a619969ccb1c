import CarpetSrv.Foundation.ExceptState

/-!
# Reading forward through a vector

A cursor is a vector with a read position. Readers are throwing computations
on a cursor. Two facts about a reader carry everything that is proved about
it: it only ever advances the position (`Advances`), and on the right input it
returns a known value after consuming exactly that input (`Reads`).

## Implementation notes

`reads` is history. It lists the indices that were looked at, in order, and no
reader depends on it. `advance` is the only operation that extends it.
-/

namespace Foundation

open ExceptState

/-- A vector of symbols, the next index to read, and the indices read so far. -/
structure ReadCursor (α : Type) where
  data : List α := []
  readPos : Nat := 0
  reads : List Nat := []
  deriving DecidableEq

namespace ReadCursor

variable {α : Type} (b : ReadCursor α)

/-- Move past `n` symbols, recording their indices. -/
def advance (n : Nat) : ReadCursor α :=
  { b with readPos := b.readPos + n, reads := b.reads ++ List.range' b.readPos n }

/-- The symbols from the read position to the end of the vector. -/
def rest : List α := b.data.drop b.readPos

@[simp] theorem advance_data (n : Nat) : (b.advance n).data = b.data := rfl

@[simp] theorem advance_readPos (n : Nat) : (b.advance n).readPos = b.readPos + n := rfl

@[simp] theorem advance_reads (n : Nat) :
    (b.advance n).reads = b.reads ++ List.range' b.readPos n := rfl

@[simp] theorem advance_zero : b.advance 0 = b := by
  simp [advance]

theorem advance_advance (m n : Nat) : (b.advance m).advance n = b.advance (m + n) := by
  simp only [advance, mk.injEq, true_and]
  refine ⟨by omega, ?_⟩
  rw [List.append_assoc, List.range'_append_1]

theorem rest_advance {l r : List α} (h : b.rest = l ++ r) :
    (b.advance l.length).rest = r := by
  have hd : (b.advance l.length).rest = b.rest.drop l.length := by
    simp only [rest, advance_data, advance_readPos, List.drop_drop]
  rw [hd, h, List.drop_left]

theorem readPos_lt_of_rest {x : α} {xs : List α} (h : b.rest = x :: xs) :
    b.readPos < b.data.length := by
  have hl := congrArg List.length h
  simp only [rest, List.length_drop, List.length_cons] at hl
  omega

theorem length_le_of_rest {xs ys : List α} (h : b.rest = xs ++ ys) (hx : xs ≠ []) :
    b.readPos + xs.length ≤ b.data.length := by
  have hl := congrArg List.length h
  have hp := List.length_pos_iff.mpr hx
  simp only [rest, List.length_drop, List.length_append] at hl
  omega

theorem getElem?_of_rest {x : α} {xs : List α} (h : b.rest = x :: xs) :
    b.data[b.readPos]? = some x := by
  have hg : b.rest[0]? = b.data[b.readPos]? := by
    simp [rest, List.getElem?_drop]
  rw [← hg, h]
  rfl

/-- The later cursor is the earlier one after some number of symbols. -/
def AdvancesTo (b b' : ReadCursor α) : Prop := ∃ n, b' = b.advance n

instance : Std.Refl (AdvancesTo (α := α)) := ⟨fun b => ⟨0, b.advance_zero.symm⟩⟩

instance : IsTrans (ReadCursor α) AdvancesTo := by
  constructor
  rintro b _ _ ⟨m, rfl⟩ ⟨n, rfl⟩
  exact ⟨m + n, b.advance_advance m n⟩

variable {b} in
theorem AdvancesTo.data_eq {b' : ReadCursor α} (h : b.AdvancesTo b') : b'.data = b.data := by
  obtain ⟨n, rfl⟩ := h
  rfl

variable {b} in
theorem AdvancesTo.readPos_le {b' : ReadCursor α} (h : b.AdvancesTo b') :
    b.readPos ≤ b'.readPos := by
  obtain ⟨n, rfl⟩ := h
  exact Nat.le_add_right _ _

/-- The later cursor is the earlier one after a number of symbols that were
there to be read. -/
def AdvancesWithin (b b' : ReadCursor α) : Prop :=
  ∃ n, b' = b.advance n ∧ (b.readPos ≤ b.data.length → b.readPos + n ≤ b.data.length)

instance : Std.Refl (AdvancesWithin (α := α)) :=
  ⟨fun b => ⟨0, b.advance_zero.symm, fun h => h⟩⟩

instance : IsTrans (ReadCursor α) AdvancesWithin := by
  constructor
  rintro b _ _ ⟨m, rfl, hm⟩ ⟨n, rfl, hn⟩
  refine ⟨m + n, b.advance_advance m n, ?_⟩
  intro h
  have hlast := hn (hm h)
  rwa [advance_readPos, advance_data, Nat.add_assoc] at hlast

end ReadCursor

variable {ε α β γ : Type}

/-- A throwing computation on a cursor. -/
abbrev Reader (ε α β : Type) := EStateM ε (ReadCursor α) β

/-- The reader changes a cursor only by advancing it, also when it throws. -/
abbrev Advances (m : Reader ε α β) : Prop := Moves ReadCursor.AdvancesTo m

/-- The reader never advances past the end of the vector. -/
abbrev StaysWithin (m : Reader ε α β) : Prop := Moves ReadCursor.AdvancesWithin m

theorem StaysWithin.advances {m : Reader ε α β} (h : StaysWithin m) : Advances m := by
  intro b
  obtain ⟨n, hn, _⟩ := h b
  exact ⟨n, hn⟩

/-- On every cursor with `xs` next, the reader consumes exactly `xs` and returns `a`. -/
def Reads (m : Reader ε α β) (xs : List α) (a : β) : Prop :=
  ∀ b ys, b.rest = xs ++ ys → m b = .ok a (b.advance xs.length)

namespace Reads

theorem pure (a : β) : Reads (pure a : Reader ε α β) [] a := by
  intro b ys _
  simp

theorem bind {m : Reader ε α β} {f : β → Reader ε α γ} {l r : List α} {a : β} {c : γ}
    (hm : Reads m l a) (hf : Reads (f a) r c) : Reads (m >>= f) (l ++ r) c := by
  intro b ys h
  rw [List.append_assoc] at h
  rw [bind_of_ok (hm b (r ++ ys) h), hf _ ys (b.rest_advance h), ReadCursor.advance_advance,
    List.length_append]

/-- A reader that ends in a pure function of what it read. -/
theorem map {m : Reader ε α β} {xs : List α} {a : β} (g : β → γ) (hm : Reads m xs a) :
    Reads (m >>= fun x => Pure.pure (g x)) xs (g a) := by
  have h := hm.bind (f := fun x => Pure.pure (g x)) (pure (g a))
  rwa [List.append_nil] at h

end Reads

/-- Return the symbol at the read position and move past it. The caller has
checked that there is one. -/
def next [Inhabited α] : Reader ε α α := do
  let b ← get
  modify fun b => b.advance 1
  return b.data.getD b.readPos default

theorem next_apply [Inhabited α] (b : ReadCursor α) :
    (next : Reader ε α α) b = .ok (b.data.getD b.readPos default) (b.advance 1) := rfl

theorem next_reads [Inhabited α] (x : α) : Reads (next : Reader ε α α) [x] x := by
  intro b ys h
  have hx : b.data[b.readPos]? = some x := b.getElem?_of_rest h
  simp [next_apply, List.getD_eq_getElem?_getD, hx]

/-- A reader that looks at the cursor first to decide how to go on. -/
theorem moves_get {R : ReadCursor α → ReadCursor α → Prop} {f : ReadCursor α → Reader ε α β}
    (h : ∀ b, R b (after (f b) b)) : Moves R (get >>= f) :=
  fun b => h b

end Foundation
