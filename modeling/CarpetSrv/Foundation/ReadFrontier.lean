import CarpetSrv.Foundation.ReadCursor

/-!
# Reading up to a frontier

A vector may be longer than the part of it that has been filled. `Confined`
says that a reader stops at or before a frontier, whether it returns or throws,
and what holds behind a return. A reader that checks the end of the vector and
then takes a number of symbols is confined where `Chunk` holds: the symbols
stand before the frontier, or the vector ends before them.
-/

namespace Foundation

open ExceptState

variable {ε α β γ : Type}

/-- The reader stops at or before the frontier, and `post` holds behind a return. -/
def Confined (frontier : Nat) (m : Reader ε α β) (post : β → ReadCursor α → Prop)
    (b : ReadCursor α) : Prop :=
  match m b with
  | .ok a b' => b'.readPos ≤ frontier ∧ post a b'
  | .error _ b' => b'.readPos ≤ frontier

/-- The next `k` symbols stand before the frontier and `next` holds behind
them, or the vector ends before them. -/
def Chunk (frontier k : Nat) (next : ReadCursor α → Prop) (b : ReadCursor α) : Prop :=
  if b.readPos + k ≤ frontier then next (b.advance k) else b.data.length < b.readPos + k

instance (frontier k : Nat) (next : ReadCursor α → Prop) [DecidablePred next] :
    DecidablePred (Chunk frontier k next) :=
  fun _ => inferInstanceAs (Decidable (ite _ _ _))

variable {frontier k : Nat} {m : Reader ε α β} {post : β → ReadCursor α → Prop}
  {b : ReadCursor α}

theorem Confined.readPos_le (h : Confined frontier m post b) :
    (after m b).readPos ≤ frontier := by
  unfold Confined at h
  rw [after]
  cases hm : m b with
  | ok a b' =>
      rw [hm] at h
      exact h.1
  | error e b' =>
      rw [hm] at h
      exact h

theorem Confined.pure {a : β} (hb : b.readPos ≤ frontier) (h : post a b) :
    Confined frontier (pure a : Reader ε α β) post b :=
  ⟨hb, h⟩

theorem Confined.throw {e : ε} (hb : b.readPos ≤ frontier) :
    Confined frontier (throw e : Reader ε α β) post b :=
  hb

theorem Confined.bind {g : β → Reader ε α γ} {last : γ → ReadCursor α → Prop}
    (hm : Confined frontier m post b)
    (hg : ∀ a b', b'.readPos ≤ frontier → post a b' → Confined frontier (g a) last b') :
    Confined frontier (m >>= g) last b := by
  unfold Confined at hm ⊢
  rw [bind_apply]
  cases h : m b with
  | ok a b' =>
      rw [h] at hm
      exact hg a b' hm.1 hm.2
  | error e b' =>
      rw [h] at hm
      exact hm

/-- A reader that looks at the cursor first to decide how to go on. -/
theorem Confined.get {g : ReadCursor α → Reader ε α β} (h : Confined frontier (g b) post b) :
    Confined frontier (get >>= g) post b :=
  h

/-- A reader that throws where the vector ends and else takes `k` symbols. -/
theorem Confined.of_chunk {a : β} {e : ε}
    (hm : m b = if b.data.length < b.readPos + k then .error e b else .ok a (b.advance k))
    (hb : b.readPos ≤ frontier) (h : Chunk frontier k (post a) b) :
    Confined frontier m post b := by
  unfold Confined
  rw [hm]
  by_cases hend : b.data.length < b.readPos + k
  · rw [if_pos hend]
    exact hb
  · rw [if_neg hend]
    unfold Chunk at h
    split_ifs at h with hle
    · exact ⟨hle, h⟩
    · exact absurd h hend

end Foundation
