import CarpetSrv.Foundation.ExceptState
import Mathlib.Data.List.Basic

/-!
# A memory of arrays

A memory is the list of all arrays that were ever allocated. An array that was
freed stays in the list and is marked, and a cell that was not written yet has
no value, so that every access that the language leaves undefined is a fault.

## Implementation notes

A pointer is an index into the list or null. No index is used twice, which
makes a stale pointer visible. Arrays are filled by counting loops, and
`forRange_ok` is their rule.
-/

namespace Foundation

open ExceptState

/-! ## Conditions and counting loops -/

section ForRange

variable {ε σ : Type}

/-- Run the body if the condition holds, as an `if` without an `else` does. -/
def onlyIf (c : Prop) [Decidable c] (body : EStateM ε σ Unit) : EStateM ε σ Unit :=
  if c then body else pure ()

theorem onlyIf_pos {c : Prop} [Decidable c] (h : c) (body : EStateM ε σ Unit) (s : σ) :
    onlyIf c body s = body s := by
  rw [onlyIf, if_pos h]

theorem onlyIf_neg {c : Prop} [Decidable c] (h : ¬ c) (body : EStateM ε σ Unit) (s : σ) :
    onlyIf c body s = .ok () s := by
  rw [onlyIf, if_neg h]
  rfl

/-- Run the body for each number below `n`, in order. -/
def forRange (n : Nat) (body : Nat → EStateM ε σ Unit) : EStateM ε σ Unit :=
  match n with
  | 0 => pure ()
  | n + 1 => do
      forRange n body
      body n

/-- A counting loop whose rounds return ends with what its invariant says of `n`. -/
theorem forRange_ok {body : Nat → EStateM ε σ Unit} {I : Nat → σ → Prop} {n : Nat} {s : σ}
    (hbody : ∀ i < n, ∀ t, I i t → ∃ u, body i t = .ok () u ∧ I (i + 1) u) (hs : I 0 s) :
    ∃ t, forRange n body s = .ok () t ∧ I n t := by
  induction n with
  | zero => exact ⟨s, rfl, hs⟩
  | succ n ih =>
      obtain ⟨t, ht, hi⟩ := ih fun i hlt => hbody i (Nat.lt_succ_of_lt hlt)
      obtain ⟨u, hu, hlast⟩ := hbody n (Nat.lt_succ_self n) t hi
      exact ⟨u, by rw [forRange, bind_of_ok ht, hu], hlast⟩

end ForRange

namespace ArrayMemory

/-- What goes wrong in an access or in an allocation. -/
inductive Fault
  | nullDereference
  | wildPointer
  | useAfterFree
  | doubleFree
  | outOfRange
  | uninitialised
  | badLength
  deriving DecidableEq, Repr

/-- An array, whether it is still allocated, and its cells. -/
structure Block (α : Type) where
  live : Bool
  cells : List (Option α)
  deriving DecidableEq

abbrev Memory (α : Type) := List (Block α)

abbrev Pointer := Option Nat

variable {α β : Type}

abbrev MemoryM (α β : Type) := EStateM Fault (Memory α) β

/-- The allocated array that a pointer points to. -/
def target (p : Pointer) : MemoryM α (Nat × Block α) := do
  match p with
  | none => throw .nullDereference
  | some q =>
      match (← get)[q]? with
      | none => throw .wildPointer
      | some block => if block.live then return (q, block) else throw .useAfterFree

/-- `p[i]` -/
def readAt (p : Pointer) (i : Nat) : MemoryM α α := do
  let (_, block) ← target p
  match block.cells[i]? with
  | none => throw .outOfRange
  | some none => throw .uninitialised
  | some (some x) => return x

/-- `p[i] = x` -/
def writeAt (p : Pointer) (i : Nat) (x : α) : MemoryM α Unit := do
  let (q, block) ← target p
  if i < block.cells.length then
    modify (·.set q ⟨true, block.cells.set i (some x)⟩)
  else throw .outOfRange

/-- `new T[n]` -/
def newArray (n : Int) : MemoryM α Nat := do
  if n < 0 then throw .badLength
  else
    let q := (← get).length
    modify (· ++ [⟨true, List.replicate n.toNat none⟩])
    return q

/-- `delete[] p`, which does nothing for a null pointer. -/
def deleteArray (p : Pointer) : MemoryM α Unit := do
  match p with
  | none => pure ()
  | some q =>
      match (← get)[q]? with
      | none => throw .wildPointer
      | some block =>
          if block.live then modify (·.set q { block with live := false })
          else throw .doubleFree

/-! ## Contents -/

/-- From this offset on, the cells hold these values. -/
def Contains (cells : List (Option α)) (offset : Nat) (us : List α) : Prop :=
  ∀ i < us.length, cells[offset + i]? = some us[i]?

theorem Contains.nil (cells : List (Option α)) (offset : Nat) : Contains cells offset [] :=
  fun _ h => absurd h (Nat.not_lt_zero _)

theorem Contains.append {cells : List (Option α)} {us vs : List α} (hu : Contains cells 0 us)
    (hv : Contains cells us.length vs) : Contains cells 0 (us ++ vs) := by
  intro i hi
  rw [List.length_append] at hi
  rw [Nat.zero_add]
  by_cases hlt : i < us.length
  · rw [List.getElem?_append_left hlt, ← hu i hlt, Nat.zero_add]
  · have hi' := hv (i - us.length) (by omega)
    rw [List.getElem?_append_right (Nat.not_lt.mp hlt), ← hi',
      Nat.add_sub_cancel' (Nat.not_lt.mp hlt)]

/-- A value is written behind those that the cells contain. -/
theorem Contains.concat {cells : List (Option α)} {us : List α} (h : Contains cells 0 us)
    (hlt : us.length < cells.length) (x : α) :
    Contains (cells.set us.length (some x)) 0 (us ++ [x]) := by
  apply Contains.append
  · intro i hi
    rw [List.getElem?_set_ne (by omega), h i hi]
  · intro i hi
    obtain rfl : i = 0 := Nat.lt_one_iff.mp hi
    exact List.getElem?_set_self hlt

/-- The pointer is null and there is no value, or the array behind it is
allocated and starts with the values. -/
def Holds (m : Memory α) (p : Pointer) (us : List α) : Prop :=
  match p with
  | none => us = []
  | some q => ∃ cells, m[q]? = some ⟨true, cells⟩ ∧ Contains cells 0 us

/-- Of the arrays of `m`, only the one behind `p` may differ in `m'`. -/
def Frame (p : Pointer) (m m' : Memory α) : Prop :=
  ∀ q < m.length, p ≠ some q → m'[q]? = m[q]?

section Access

variable {m m' : Memory α} {p : Pointer} {us : List α} {q : Nat} {cells : List (Option α)}

theorem Holds.congr (h : Holds m p us) (hm : ∀ q, p = some q → m'[q]? = m[q]?) :
    Holds m' p us := by
  cases p with
  | none => exact h
  | some q =>
      obtain ⟨cells, hq, hc⟩ := h
      exact ⟨cells, (hm q rfl).trans hq, hc⟩

/-- A pointer that holds values points into the memory. -/
theorem Holds.lt_length (h : Holds m (some q) us) : q < m.length := by
  obtain ⟨cells, hq, _⟩ := h
  exact (List.getElem?_eq_some_iff.mp hq).1

/-- The newest array holds what its cells contain. -/
theorem holds_newest (h : Contains cells 0 us) :
    Holds (m ++ [⟨true, cells⟩]) (some m.length) us :=
  ⟨cells, List.getElem?_concat_length, h⟩

theorem Holds.ne_none (h : Holds m p us) (hus : us ≠ []) : p ≠ none := by
  rintro rfl
  exact hus h

theorem target_live (hq : m[q]? = some ⟨true, cells⟩) :
    target (some q) m = .ok (q, ⟨true, cells⟩) m := by
  simp only [target, bind_apply, get_apply, hq, if_true]
  rfl

theorem readAt_holds (h : Holds m p us) {i : Nat} (hi : i < us.length) :
    readAt p i m = .ok us[i] m := by
  cases p with
  | none =>
      have hnil : us = [] := h
      rw [hnil] at hi
      exact absurd hi (Nat.not_lt_zero i)
  | some q =>
      obtain ⟨cells, hq, hc⟩ := h
      have hcell : cells[i]? = some (some us[i]) := by
        rw [← List.getElem?_eq_getElem hi, ← hc i hi, Nat.zero_add]
      rw [readAt, bind_of_ok (target_live hq)]
      simp only [hcell]
      rfl

theorem writeAt_live (hq : m[q]? = some ⟨true, cells⟩) {i : Nat} (hi : i < cells.length) (x : α) :
    writeAt (some q) i x m = .ok () (m.set q ⟨true, cells.set i (some x)⟩) := by
  rw [writeAt, bind_of_ok (target_live hq)]
  simp only [if_pos hi]
  rfl

theorem newArray_apply {n : Int} (hn : 0 ≤ n) (m : Memory α) :
    newArray n m = .ok m.length (m ++ [⟨true, List.replicate n.toNat none⟩]) := by
  rw [newArray, if_neg (Int.not_lt.mpr hn)]
  rfl

/-- The memory behind `delete[] p`. -/
def freed (p : Pointer) (m : Memory α) : Memory α :=
  match p with
  | none => m
  | some q => m.modify q fun block => { block with live := false }

theorem freed_eq_set (hq : m[q]? = some ⟨true, cells⟩) :
    freed (some q) m = m.set q ⟨false, cells⟩ := by
  rw [freed, List.modify_eq_set_getElem?, hq]
  rfl

theorem deleteArray_holds (h : Holds m p us) : deleteArray p m = .ok () (freed p m) := by
  cases p with
  | none => rfl
  | some q =>
      obtain ⟨cells, hq, _⟩ := h
      rw [freed_eq_set hq]
      simp only [deleteArray, bind_apply, get_apply, hq, if_true]
      rfl

theorem freed_of_ne (h : p ≠ some q) : (freed p m)[q]? = m[q]? := by
  cases p with
  | none => rfl
  | some r =>
      have hne : r ≠ q := fun he => h (congrArg some he)
      exact List.getElem?_modify_ne _ _ hne

@[simp] theorem length_freed (p : Pointer) (m : Memory α) : (freed p m).length = m.length := by
  cases p <;> simp [freed]

/-- The freed array is one of the old ones. -/
theorem freed_append (h : Holds m p us) (l : Memory α) : freed p (m ++ l) = freed p m ++ l := by
  cases p with
  | none => rfl
  | some q =>
      have hlt := h.lt_length
      obtain ⟨cells, hq, _⟩ := h
      have hq' : (m ++ l)[q]? = some ⟨true, cells⟩ := by
        rw [List.getElem?_append_left hlt, hq]
      rw [freed_eq_set hq, freed_eq_set hq', List.set_append_left q _ hlt]

/-! ## Frames -/

theorem Frame.refl (p : Pointer) (m : Memory α) : Frame p m m :=
  fun _ _ _ => rfl

theorem Frame.freed (h : Frame p m m') : Frame p m (freed p m') := by
  intro r hr hp
  rw [freed_of_ne hp]
  exact h r hr hp

/-- New arrays stand behind the old ones. -/
theorem Frame.append (h : Frame p m m') (hlen : m.length ≤ m'.length) (l : Memory α) :
    Frame p m (m' ++ l) := by
  intro r hr hp
  rw [List.getElem?_append_left (by omega)]
  exact h r hr hp

/-- Values behind another pointer stay. -/
theorem Holds.frame {r : Pointer} (h : Holds m r us) (hf : Frame p m m')
    (hr : ∀ q, r = some q → p ≠ some q) : Holds m' r us := by
  refine h.congr fun q hq => hf q ?_ (hr q hq)
  rw [hq] at h
  exact h.lt_length

end Access

/-! ## Which arrays are allocated -/

/-- Replacing an entry changes the count by that entry alone. -/
theorem countP_set_add {P : β → Bool} {l : List β} {i : Nat} {x : β} (h : l[i]? = some x) (y : β) :
    (l.set i y).countP P + (if P x then 1 else 0) = l.countP P + (if P y then 1 else 0) := by
  obtain ⟨hlt, rfl⟩ := List.getElem?_eq_some_iff.mp h
  rw [List.countP_set hlt]
  by_cases hx : P l[i] = true
  · have hpos : 0 < l.countP P := List.countP_pos_iff.mpr ⟨l[i], List.getElem_mem hlt, hx⟩
    simp only [if_pos hx]
    omega
  · simp only [if_neg hx]
    omega

/-- For each array that was ever allocated, whether it still is. -/
def lives (m : Memory α) : List Bool := m.map Block.live

/-- The arrays that were allocated and not freed. -/
def liveArrays (m : Memory α) : Nat := (lives m).count true

/-- Mark the array behind `p` as freed. -/
def release (p : Pointer) (l : List Bool) : List Bool :=
  match p with
  | none => l
  | some q => l.set q false

theorem getElem?_release_of_ne {p : Pointer} {q : Nat} (h : p ≠ some q) (l : List Bool) :
    (release p l)[q]? = l[q]? := by
  cases p with
  | none => rfl
  | some r => exact List.getElem?_set_ne fun he => h (congrArg some he)

theorem count_release {p : Pointer} {l : List Bool} (h : ∀ q, p = some q → l[q]? = some true) :
    (release p l).count true + (if p.isSome then 1 else 0) = l.count true := by
  cases p with
  | none => rfl
  | some q =>
      exact countP_set_add (h q rfl) false

section Lives

variable {m m' : Memory α} {p : Pointer} {q : Nat} {block : Block α}

theorem target_eq_ok (h : target p m = .ok (q, block) m') :
    m' = m ∧ m[q]? = some block ∧ block.live = true := by
  cases p with
  | none => cases h
  | some r =>
      cases hr : m[r]? with
      | none =>
          simp only [target, bind_apply, get_apply, hr] at h
          cases h
      | some b =>
          simp only [target, bind_apply, get_apply, hr, ite_run] at h
          split_ifs at h with hl
          · cases h
            exact ⟨rfl, hr, hl⟩
          · cases h

theorem lives_newArray {n : Int} (h : newArray n m = .ok q m') :
    q = (lives m).length ∧ lives m' = lives m ++ [true] := by
  unfold newArray at h
  split_ifs at h
  · cases h
  · cases h
    simp [lives]

theorem lives_deleteArray (h : deleteArray p m = .ok () m') :
    lives m' = release p (lives m) ∧ ∀ q, p = some q → (lives m)[q]? = some true := by
  cases p with
  | none =>
      cases h
      exact ⟨rfl, nofun⟩
  | some q =>
      cases hq : m[q]? with
      | none =>
          simp only [deleteArray, bind_apply, get_apply, hq] at h
          cases h
      | some block =>
          simp only [deleteArray, bind_apply, get_apply, hq, ite_run] at h
          split_ifs at h with hl
          · cases h
            refine ⟨List.map_set, ?_⟩
            intro r hr
            cases hr
            rw [lives, List.getElem?_map, hq, Option.map_some, hl]
          · cases h

theorem lives_writeAt {i : Nat} {x : α} (h : writeAt p i x m = .ok () m') :
    lives m' = lives m := by
  obtain ⟨⟨q, block⟩, n, ht, hwrite⟩ := bind_eq_ok_iff.mp h
  obtain ⟨rfl, hq, hl⟩ := target_eq_ok ht
  simp only [ite_run] at hwrite
  split_ifs at hwrite
  · cases hwrite
    have hlive : (lives n)[q]? = some true := by
      rw [lives, List.getElem?_map, hq, Option.map_some, hl]
    obtain ⟨hlt, hget⟩ := List.getElem?_eq_some_iff.mp hlive
    rw [lives, List.map_set]
    exact (congrArg _ hget.symm).trans (List.set_getElem_self hlt)
  · cases hwrite

theorem readAt_eq_ok {i : Nat} {x : α} (h : readAt p i m = .ok x m') : m' = m := by
  obtain ⟨⟨q, block⟩, n, ht, hread⟩ := bind_eq_ok_iff.mp h
  obtain ⟨rfl, _, _⟩ := target_eq_ok ht
  rcases hc : block.cells[i]? with _ | _ | y
  all_goals simp only [hc] at hread
  · cases hread
  · cases hread
  · cases hread
    rfl

end Lives

end ArrayMemory

end Foundation
