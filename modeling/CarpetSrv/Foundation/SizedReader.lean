import CarpetSrv.Foundation.ReadCursor

/-!
# Readers of a known size

How many symbols a reader takes may depend on the symbols themselves, but not
on how many there are. Such a reader returns exactly on the cursors that hold
the symbols it takes, and sequential composition adds the sizes.
-/

namespace Foundation

open ExceptState

variable {ε α β γ : Type}

/-- The cursor holds `n` more symbols. -/
def ReadCursor.Holds (b : ReadCursor α) (n : Nat) : Prop :=
  0 < n → b.readPos + n ≤ b.data.length

instance (b : ReadCursor α) (n : Nat) : Decidable (b.Holds n) :=
  inferInstanceAs (Decidable (0 < n → _))

theorem ReadCursor.holds_add (b : ReadCursor α) (m n : Nat) :
    b.Holds (m + n) ↔ b.Holds m ∧ (b.advance m).Holds n := by
  simp only [ReadCursor.Holds, ReadCursor.advance_readPos, ReadCursor.advance_data]
  omega

theorem ReadCursor.Holds.le_length_rest {b : ReadCursor α} {n : Nat} (h : b.Holds n) :
    n ≤ b.rest.length := by
  simp only [ReadCursor.Holds] at h
  simp only [ReadCursor.rest, List.length_drop]
  omega

/-- On this cursor the reader takes `n` symbols when they are there, and else it throws. -/
def TakesAt (m : Reader ε α β) (b : ReadCursor α) (n : Nat) : Prop :=
  (b.Holds n ∧ ∃ a, m b = .ok a (b.advance n)) ∨ (¬ b.Holds n ∧ ∃ e b', m b = .error e b')

namespace TakesAt

variable {m : Reader ε α β} {b : ReadCursor α} {n k : Nat}

theorem pure (a : β) : TakesAt (pure a : Reader ε α β) b 0 :=
  .inl ⟨fun h => absurd h (Nat.lt_irrefl 0), a, by rw [ReadCursor.advance_zero]; rfl⟩

theorem bind {f : β → Reader ε α γ} (hm : TakesAt m b n)
    (hf : ∀ a, m b = .ok a (b.advance n) → TakesAt (f a) (b.advance n) k) :
    TakesAt (m >>= f) b (n + k) := by
  rcases hm with ⟨hn, a, ha⟩ | ⟨hn, e, b', he⟩
  · rcases hf a ha with ⟨hk, c, hc⟩ | ⟨hk, e, b', he⟩
    · refine .inl ⟨(b.holds_add n k).mpr ⟨hn, hk⟩, c, ?_⟩
      rw [bind_of_ok ha, hc, ReadCursor.advance_advance]
    · refine .inr ⟨fun h => hk ((b.holds_add n k).mp h).2, e, b', ?_⟩
      rw [bind_of_ok ha, he]
  · exact .inr ⟨fun h => hn ((b.holds_add n k).mp h).1, e, b', bind_of_error he f⟩

/-- A reader that ends in a pure function of what it read. -/
theorem map (g : β → γ) (hm : TakesAt m b n) :
    TakesAt (m >>= fun x => Pure.pure (g x)) b n :=
  hm.bind (k := 0) fun a _ => .pure (g a)

/-- A reader that checks for its symbols before it takes them. -/
theorem of_check {e : ε} {a : β} (hn : 0 < n)
    (h : m b = if b.data.length < b.readPos + n then .error e b else .ok a (b.advance n)) :
    TakesAt m b n := by
  rw [TakesAt, h]
  split_ifs with hlt
  · exact .inr ⟨fun hb => absurd (hb hn) (by omega), e, b, rfl⟩
  · exact .inl ⟨fun _ => by omega, a, rfl⟩

theorem ok_of_holds (h : TakesAt m b n) (hn : b.Holds n) : ∃ a, m b = .ok a (b.advance n) := by
  rcases h with ⟨_, ha⟩ | ⟨hno, _⟩
  · exact ha
  · exact absurd hn hno

theorem holds_of_ok (h : TakesAt m b n) {a : β} {b' : ReadCursor α} (ha : m b = .ok a b') :
    b.Holds n := by
  rcases h with ⟨hn, _⟩ | ⟨_, e, b'', he⟩
  · exact hn
  · cases ha.symm.trans he

end TakesAt

end Foundation
