import CarpetSrv.Foundation.ArrayMemory
import CarpetSrv.Foundation.GuardedRun
import CarpetSrv.Utils.UTF16String

/-!
# UTF-16 strings and their arrays

The class `UTF16String` as it manages its array by hand: each object has a
pointer and a length, and its methods allocate, copy and free. A program is a
sequence of operations on a set of objects, and it stops at the first fault.

## Implementation notes

A method is given the objects it works on by their numbers, so that the same
object can be passed twice, and it looks the members up each time the source
does. `length` is an `int`: sums of lengths are checked for overflow, and a
count that is converted to `int` is cut to 32 bits. A loop whose bound is
negative is never reached, since the allocation in front of it has failed.
-/

namespace CarpetSrv.Utils.UTF16Storage

open Foundation Foundation.ExceptState Foundation.ArrayMemory

/-- The members of a `UTF16String`. -/
structure StringObject where
  characters : Pointer := none
  length : Int := 0
  deriving DecidableEq

inductive StringFault
  | memory (f : Fault)
  | signedOverflow
  | deadObject
  deriving DecidableEq, Repr

/-- The objects constructed so far, without those that were destroyed, and the memory. -/
structure Store where
  objects : List (Option StringObject) := []
  memory : Memory (BitVec 16) := []
  fault : Option StringFault := none
  deriving DecidableEq

abbrev StoreM := EStateM StringFault Store

def intMax : Int := 2147483647

/-- The conversion of a `size_t` to `int`. -/
def toInt (n : Nat) : Int := (BitVec.ofNat 32 n).toInt

/-! ## Access to objects and arrays -/

/-- The object of this number, if it was not destroyed. -/
def Store.object (s : Store) (o : Nat) : Option StringObject := s.objects[o]?.join

def load (o : Nat) : StoreM StringObject := do
  match (← get).object o with
  | some obj => return obj
  | none => throw .deadObject

def setCharacters (o : Nat) (p : Pointer) : StoreM Unit :=
  modify fun s =>
    { s with objects := s.objects.modify o (·.map fun obj => { obj with characters := p }) }

def setLength (o : Nat) (n : Int) : StoreM Unit :=
  modify fun s =>
    { s with objects := s.objects.modify o (·.map fun obj => { obj with length := n }) }

def onMemory {α : Type} (m : MemoryM (BitVec 16) α) : StoreM α := fun s =>
  match m s.memory with
  | .ok a memory => .ok a { s with memory := memory }
  | .error f memory => .error (.memory f) { s with memory := memory }

/-- `o.characters[i]` -/
def characterAt (o i : Nat) : StoreM (BitVec 16) := do
  onMemory (readAt (← load o).characters i)

/-- The sum of two lengths. -/
def addLengths (m n : Int) : StoreM Int :=
  if m + n > intMax then throw .signedOverflow else return m + n

/-- The loop `target[i + offset] = source(i)` below `n`. -/
def fill (target : StoreM Pointer) (offset : Nat) (source : Nat → StoreM (BitVec 16)) (n : Nat) :
    StoreM Unit :=
  forRange n fun i => do
    let c ← source i
    onMemory (writeAt (← target) (offset + i) c)

/-! ## Constructors and the destructor -/

/-- The constructors with an argument: a new object with an array of this
length, filled from the source. -/
def construct (length : Int) (source : Nat → StoreM (BitVec 16)) : StoreM Unit := do
  let this := (← get).objects.length
  modify fun s => { s with objects := s.objects ++ [some ⟨none, length⟩] }
  let array ← onMemory (newArray length)
  setCharacters this (some array)
  fill (return (← load this).characters) 0 source (← load this).length.toNat

def default : StoreM Unit :=
  modify fun s => { s with objects := s.objects ++ [some {}] }

/-- `UTF16String(const std::string &)` -/
def ofString (str : CppString) : StoreM Unit :=
  construct (toInt str.length) fun i => return (str.getD i 0).setWidth 16

/-- `utf16String[i]` of an array with these units. -/
def unitAt (utf16String : List (BitVec 16)) (i : Nat) : StoreM (BitVec 16) :=
  match utf16String[i]? with
  | some c => return c
  | none => throw (.memory .outOfRange)

/-- `UTF16String(const unsigned short *, int)` -/
def ofUnits (utf16String : List (BitVec 16)) (length : CInt) : StoreM Unit :=
  construct length.toInt (unitAt utf16String)

/-- `UTF16String(const UTF16String &)` -/
def copy (str : Nat) : StoreM Unit := do
  construct (← load str).length (characterAt str)

def destroy (this : Nat) : StoreM Unit := do
  onlyIf ((← load this).characters ≠ none) do
    onMemory (deleteArray (← load this).characters)
    setCharacters this none
  modify fun s => { s with objects := s.objects.set this none }

/-! ## Appending and assigning -/

/-- `append(const UTF16String &)` -/
def append (this string : Nat) : StoreM Unit := do
  onlyIf ((← load string).length ≠ 0) do
    let new_string ← onMemory (newArray (← addLengths (← load this).length (← load string).length))
    fill (return some new_string) 0 (characterAt this) (← load this).length.toNat
    onMemory (deleteArray (← load this).characters)
    fill (return some new_string) (← load this).length.toNat (characterAt string)
      (← load string).length.toNat
    setCharacters this (some new_string)
    setLength this (← addLengths (← load this).length (← load string).length)

/-- `operator+=` -/
def plusAssign (this string : Nat) : StoreM Unit := append this string

/-- `append(int)` -/
def appendUnit (this : Nat) (nbr : CInt) : StoreM Unit := do
  let new_string ← onMemory (newArray (← addLengths (← load this).length 1))
  onlyIf ((← load this).characters ≠ none) do
    fill (return some new_string) 0 (characterAt this) (← load this).length.toNat
    onMemory (deleteArray (← load this).characters)
  onMemory (writeAt (some new_string) (← load this).length.toNat (nbr.setWidth 16))
  setCharacters this (some new_string)
  setLength this (← addLengths (← load this).length 1)

/-- `operator=` -/
def assign (this string : Nat) : StoreM Unit := do
  onlyIf ((← load this).length ≠ 0) do
    onMemory (deleteArray (← load this).characters)
    setCharacters this none
  setLength this (← load string).length
  onlyIf ((← load string).length ≠ 0 ∧ (← load string).characters ≠ none) do
    let array ← onMemory (newArray (← load string).length)
    setCharacters this (some array)
    fill (return (← load this).characters) 0 (characterAt string) (← load this).length.toNat

/-! ## Programs -/

inductive Operation
  | default
  | ofString (str : CppString)
  | ofUnits (utf16String : List (BitVec 16)) (length : CInt)
  | copy (str : Nat)
  | assign (this string : Nat)
  | append (this string : Nat)
  | plusAssign (this string : Nat)
  | appendUnit (this : Nat) (nbr : CInt)
  | destroy (this : Nat)
  deriving DecidableEq

namespace Operation

/-- The objects that an operation works on. -/
def operands : Operation → List Nat
  | .default | .ofString _ | .ofUnits _ _ => []
  | .copy o | .appendUnit o _ | .destroy o => [o]
  | .assign this string | .append this string | .plusAssign this string => [this, string]

def run : Operation → StoreM Unit
  | .default => UTF16Storage.default
  | .ofString str => UTF16Storage.ofString str
  | .ofUnits utf16String length => UTF16Storage.ofUnits utf16String length
  | .copy str => UTF16Storage.copy str
  | .assign this string => UTF16Storage.assign this string
  | .append this string => UTF16Storage.append this string
  | .plusAssign this string => UTF16Storage.plusAssign this string
  | .appendUnit this nbr => UTF16Storage.appendUnit this nbr
  | .destroy this => UTF16Storage.destroy this

end Operation

/-- One operation on objects that exist. Nothing happens behind a fault. -/
def step (s : Store) (e : Operation) : Option Store :=
  if s.fault = none ∧ ∀ o ∈ e.operands, (s.object o).isSome = true then
    match e.run s with
    | .ok _ t => some t
    | .error f t => some { t with fault := some f }
  else none

/-! ## Lists with destroyed entries -/

section Entries

variable {α : Type} {l : List (Option α)} {o : Nat}

theorem lt_length_of_entry {a : α} (h : l[o]?.join = some a) : o < l.length :=
  (List.getElem?_eq_some_iff.mp (Option.join_eq_some_iff.mp h)).1

theorem entry_set (ho : o < l.length) (x : Option α) (i : Nat) :
    (l.set o x)[i]?.join = if i = o then x else l[i]?.join := by
  by_cases hi : i = o
  · rw [if_pos hi, hi, List.getElem?_set_self ho]
    rfl
  · rw [if_neg hi, List.getElem?_set_ne (Ne.symm hi)]

theorem entry_concat (l : List (Option α)) (x : Option α) (i : Nat) :
    (l ++ [x])[i]?.join = if i = l.length then x else l[i]?.join := by
  by_cases hi : i = l.length
  · rw [if_pos hi, hi, List.getElem?_concat_length]
    rfl
  · rw [if_neg hi]
    by_cases hlt : i < l.length
    · rw [List.getElem?_append_left hlt]
    · rw [List.getElem?_eq_none (by simp; omega), List.getElem?_eq_none (by omega)]

end Entries

/-! ## What an access does -/

/-- The store with another object of this number. -/
def Store.put (s : Store) (o : Nat) (obj : StringObject) : Store :=
  { s with objects := s.objects.set o (some obj) }

/-- The store with a new object. -/
def Store.push (s : Store) (obj : StringObject) : Store :=
  { s with objects := s.objects ++ [some obj] }

/-- The store with a new array behind all others. -/
def Store.withArray (s : Store) (cells : List (Option (BitVec 16))) : Store :=
  { s with memory := s.memory ++ [⟨true, cells⟩] }

/-- The store behind `delete[] p`. -/
def Store.free (s : Store) (p : Pointer) : Store := { s with memory := freed p s.memory }

section Access

variable {s : Store} {o : Nat} {obj : StringObject}

theorem object_push (s : Store) (obj : StringObject) (i : Nat) :
    (s.push obj).object i = if i = s.objects.length then some obj else s.object i :=
  entry_concat s.objects (some obj) i

theorem object_push_self (s : Store) (obj : StringObject) :
    (s.push obj).object s.objects.length = some obj :=
  (object_push s obj _).trans (if_pos rfl)

theorem put_push (s : Store) (obj obj' : StringObject) :
    (s.push obj).put s.objects.length obj' = s.push obj' := by
  simp [Store.put, Store.push]

theorem object_put (ho : s.object o = some obj) (obj' : StringObject) (i : Nat) :
    (s.put o obj').object i = if i = o then some obj' else s.object i :=
  entry_set (lt_length_of_entry ho) (some obj') i

theorem object_put_self (ho : s.object o = some obj) (obj' : StringObject) :
    (s.put o obj').object o = some obj' :=
  (object_put ho obj' o).trans (if_pos rfl)

theorem object_put_of_ne (ho : s.object o = some obj) (obj' : StringObject) {i : Nat}
    (hi : i ≠ o) : (s.put o obj').object i = s.object i :=
  (object_put ho obj' i).trans (if_neg hi)

theorem load_apply (ho : s.object o = some obj) : load o s = .ok obj s := by
  simp only [load, bind_apply, get_apply, ho]
  rfl

theorem modify_put (ho : s.object o = some obj) (f : StringObject → StringObject) :
    { s with objects := s.objects.modify o (·.map f) } = s.put o (f obj) := by
  have hentry : s.objects[o]? = some (some obj) := Option.join_eq_some_iff.mp ho
  rw [Store.put, List.modify_eq_set_getElem?, hentry]
  rfl

theorem setCharacters_apply (ho : s.object o = some obj) (p : Pointer) :
    setCharacters o p s = .ok () (s.put o { obj with characters := p }) := by
  rw [← modify_put ho fun obj => { obj with characters := p }]
  rfl

theorem setLength_apply (ho : s.object o = some obj) (n : Int) :
    setLength o n s = .ok () (s.put o { obj with length := n }) := by
  rw [← modify_put ho fun obj => { obj with length := n }]
  rfl

@[simp] theorem put_put (s : Store) (o : Nat) (obj obj' : StringObject) :
    (s.put o obj).put o obj' = s.put o obj' := by
  simp [Store.put]

theorem onMemory_apply {α : Type} {m : MemoryM (BitVec 16) α} {a : α}
    {memory : Memory (BitVec 16)} (h : m s.memory = .ok a memory) :
    onMemory m s = .ok a { s with memory := memory } := by
  rw [onMemory, h]

/-- `new` puts an array that was not written yet behind all others. -/
theorem newArray_withArray {n : Int} (hn : 0 ≤ n) (s : Store) :
    onMemory (newArray n) s = .ok s.memory.length (s.withArray (List.replicate n.toNat none)) :=
  onMemory_apply (newArray_apply hn s.memory)

theorem deleteArray_free {p : Pointer} {us : UTF16String} (h : Holds s.memory p us) :
    onMemory (deleteArray p) s = .ok () (s.free p) :=
  onMemory_apply (deleteArray_holds h)

theorem free_withArray {p : Pointer} {us : UTF16String} (h : Holds s.memory p us)
    (cells : List (Option (BitVec 16))) :
    (s.withArray cells).free p = (s.free p).withArray cells := by
  simp only [Store.free, Store.withArray, freed_append h]

theorem addLengths_apply {m n : Int} (h : m + n ≤ intMax) (s : Store) :
    addLengths m n s = .ok (m + n) s := by
  rw [addLengths, if_neg (Int.not_lt.mpr h)]
  rfl

theorem characterAt_apply {us : UTF16String} (ho : s.object o = some obj)
    (h : Holds s.memory obj.characters us) {i : Nat} (hi : i < us.length) :
    characterAt o i s = .ok us[i] s := by
  rw [characterAt, bind_of_ok (load_apply ho), onMemory_apply (readAt_holds h hi)]

theorem writeAt_withArray (s : Store) {cells : List (Option (BitVec 16))} {i : Nat}
    (hi : i < cells.length) (c : BitVec 16) :
    onMemory (writeAt (some s.memory.length) i c) (s.withArray cells) =
      .ok () (s.withArray (cells.set i (some c))) := by
  have hcells : (s.withArray cells).memory[s.memory.length]? = some ⟨true, cells⟩ :=
    List.getElem?_concat_length
  rw [onMemory_apply (writeAt_live hcells hi c)]
  simp [Store.withArray]

/-- A loop that fills a part of the newest array with what its source returns. -/
theorem fill_ok {target : StoreM Pointer} {offset : Nat} {source : Nat → StoreM (BitVec 16)}
    {cells : List (Option (BitVec 16))} {n : Int} {us : UTF16String} (hn : n = us.length)
    (hroom : offset + us.length ≤ cells.length)
    (htarget : ∀ cs, target (s.withArray cs) = .ok (some s.memory.length) (s.withArray cs))
    (hsource : ∀ cs i, (hi : i < us.length) →
      source i (s.withArray cs) = .ok us[i] (s.withArray cs)) :
    ∃ cs, fill target offset source n.toNat (s.withArray cells) = .ok () (s.withArray cs) ∧
      cs.length = cells.length ∧ Contains cs offset us ∧ ∀ j < offset, cs[j]? = cells[j]? := by
  rw [hn, Int.toNat_natCast]
  -- The cells behind the first `i` rounds.
  let I : Nat → Store → Prop := fun i t => ∃ cs, t = s.withArray cs ∧ cs.length = cells.length ∧
    (∀ j < i, cs[offset + j]? = some us[j]?) ∧ ∀ j < offset, cs[j]? = cells[j]?
  have hrounds : ∃ t, fill target offset source us.length (s.withArray cells) = .ok () t ∧
      I us.length t := by
    apply forRange_ok
    · rintro i hi t ⟨cs, rfl, hlen, hdone, hbefore⟩
      refine ⟨s.withArray (cs.set (offset + i) (some us[i])), ?_, _, rfl, ?_, ?_, ?_⟩
      · exact bind_ok (hsource cs i hi)
          (bind_ok (htarget cs) (writeAt_withArray s (by omega) us[i]))
      · rw [List.length_set, hlen]
      · intro j hj
        by_cases hji : j = i
        · rw [hji, List.getElem?_set_self (by omega), List.getElem?_eq_getElem hi]
        · rw [List.getElem?_set_ne (by omega), hdone j (by omega)]
      · intro j hj
        rw [List.getElem?_set_ne (by omega), hbefore j hj]
    · exact ⟨cells, rfl, rfl, fun j hj => absurd hj (Nat.not_lt_zero j), fun _ _ => rfl⟩
  obtain ⟨t, ht, cs, rfl, hlen, hdone, hbefore⟩ := hrounds
  exact ⟨cs, ht, hlen, hdone, hbefore⟩

end Access

end CarpetSrv.Utils.UTF16Storage
