import CarpetSrv.Utils.UTF16Storage

/-!
# Arrays that nothing frees

In every program without a fault each object with a pointer has an allocated
array of its own. The arrays that are still allocated are those of the live
objects and, for each assignment that put a pointer over another one, the array
behind the pointer that was overwritten. `operator=` frees the old array only
of an object with a length, while the constructors allocate an array of length
0 for an empty string.

## Implementation notes

The result needs no condition on the operands. Each method is inverted once:
it rearranges the arrays of one object, and both results are read off from that.
-/

namespace CarpetSrv.Utils.UTF16Storage

open Foundation Foundation.ExceptState Foundation.ArrayMemory

/-- The object is alive and has an array. -/
def hasArray (x : Option StringObject) : Bool := x.any (·.characters.isSome)

/-- The objects with an array. -/
def Store.owners (s : Store) : Nat := s.objects.countP hasArray

def Store.arrays (s : Store) : Nat := liveArrays s.memory

/-- The array of an object. -/
def Store.pointer (s : Store) (o : Nat) : Pointer := (s.object o).bind StringObject.characters

/-- The arrays of the live objects are allocated, and no two objects share one. -/
structure OwnsArrays (s : Store) : Prop where
  allocated : ∀ o q, s.pointer o = some q → (lives s.memory)[q]? = some true
  distinct : ∀ o o' q, s.pointer o = some q → s.pointer o' = some q → o = o'

/-- An object without units but with an array is assigned an object with units. -/
def Overwrites (s : Store) : Operation → Prop
  | .assign this string => ∃ a ∈ s.object this, ∃ b ∈ s.object string,
      a.length = 0 ∧ a.characters ≠ none ∧ b.length ≠ 0 ∧ b.characters ≠ none
  | _ => False

instance (s : Store) : ∀ e : Operation, Decidable (Overwrites s e)
  | .assign .. => inferInstanceAs (Decidable (∃ a ∈ _, ∃ b ∈ _, _))
  | .default | .ofString _ | .ofUnits .. | .copy _ | .append .. | .plusAssign .. | .appendUnit ..
  | .destroy _ => .isFalse id

/-- The assignments of a program that overwrite a pointer. -/
def overwritten (s : Store) : List Operation → Nat
  | [] => 0
  | e :: es => (if Overwrites s e then 1 else 0) +
      match step s e with
      | some t => overwritten t es
      | none => 0

/-! ## What an access that returned has done -/

section Effects

variable {s t : Store} {o : Nat} {obj : StringObject}

theorem load_eq_ok_iff : load o s = .ok obj t ↔ s.object o = some obj ∧ s = t := by
  simp only [load, bind_apply, get_apply]
  cases s.object o with
  | none => simp
  | some a => simp

theorem addLengths_eq_ok_iff {m n k : Int} :
    addLengths m n s = .ok k t ↔ m + n ≤ intMax ∧ m + n = k ∧ s = t := by
  unfold addLengths
  split_ifs with h
  · simp [Int.not_le.mpr h]
  · simp [Int.not_lt.mp h]

theorem onMemory_eq_ok {α : Type} {m : MemoryM (BitVec 16) α} {a : α}
    (h : onMemory m s = .ok a t) :
    ∃ memory, m s.memory = .ok a memory ∧ t = { s with memory := memory } := by
  unfold onMemory at h
  cases hm : m s.memory with
  | ok b memory =>
      rw [hm] at h
      cases h
      exact ⟨memory, rfl, rfl⟩
  | error f memory =>
      rw [hm] at h
      cases h

/-- The same objects, and the same arrays are allocated. -/
structure Steady (s t : Store) : Prop where
  objects : t.objects = s.objects
  lives : lives t.memory = lives s.memory

theorem object_congr (h : t.objects = s.objects) (o : Nat) : t.object o = s.object o := by
  rw [Store.object, Store.object, h]

theorem owners_congr (h : t.objects = s.objects) : t.owners = s.owners := by
  rw [Store.owners, Store.owners, h]

theorem pointer_eq (ho : s.object o = some obj) : s.pointer o = obj.characters := by
  rw [Store.pointer, ho]
  rfl

theorem pointer_congr (h : t.object o = s.object o) : t.pointer o = s.pointer o := by
  rw [Store.pointer, Store.pointer, h]

theorem newArray_effect {n : Int} {q : Nat} (h : onMemory (newArray n) s = .ok q t) :
    q = (lives s.memory).length ∧ t.objects = s.objects ∧
      lives t.memory = lives s.memory ++ [true] := by
  obtain ⟨memory, hm, rfl⟩ := onMemory_eq_ok h
  obtain ⟨hq, hlives⟩ := lives_newArray hm
  exact ⟨hq, rfl, hlives⟩

theorem deleteArray_effect {p : Pointer} (h : onMemory (deleteArray p) s = .ok () t) :
    t.objects = s.objects ∧ lives t.memory = release p (lives s.memory) ∧
      ∀ q, p = some q → (lives s.memory)[q]? = some true := by
  obtain ⟨memory, hm, rfl⟩ := onMemory_eq_ok h
  exact ⟨rfl, lives_deleteArray hm⟩

theorem writeAt_effect {p : Pointer} {i : Nat} {c : BitVec 16}
    (h : onMemory (writeAt p i c) s = .ok () t) : Steady s t := by
  obtain ⟨memory, hm, rfl⟩ := onMemory_eq_ok h
  exact ⟨rfl, lives_writeAt hm⟩

theorem characterAt_effect {i : Nat} {c : BitVec 16} (h : characterAt o i s = .ok c t) :
    s = t := by
  obtain ⟨obj, s₁, hload, hread⟩ := bind_eq_ok_iff.mp h
  obtain ⟨_, rfl⟩ := load_eq_ok_iff.mp hload
  obtain ⟨memory, hm, rfl⟩ := onMemory_eq_ok hread
  rw [readAt_eq_ok hm]

theorem unitAt_effect {us : List (BitVec 16)} {i : Nat} {c : BitVec 16}
    (h : unitAt us i s = .ok c t) : s = t := by
  unfold unitAt at h
  cases hc : us[i]? with
  | none =>
      rw [hc] at h
      cases h
  | some d =>
      rw [hc] at h
      cases h
      rfl

/-- Filling an array allocates and frees nothing. -/
theorem fill_effect {target : StoreM Pointer} {offset n : Nat} {source : Nat → StoreM (BitVec 16)}
    (htarget : ∀ {s t p}, target s = .ok p t → s = t)
    (hsource : ∀ {i s t c}, source i s = .ok c t → s = t)
    (h : fill target offset source n s = .ok () t) : Steady s t := by
  unfold fill at h
  induction n generalizing t with
  | zero =>
      cases h
      exact ⟨rfl, rfl⟩
  | succ n ih =>
      obtain ⟨_, u, hfirst, hlast⟩ := bind_eq_ok_iff.mp h
      obtain ⟨c, u₁, hc, hrest⟩ := bind_eq_ok_iff.mp hlast
      obtain ⟨p, u₂, hp, hwrite⟩ := bind_eq_ok_iff.mp hrest
      obtain rfl := hsource hc
      obtain rfl := htarget hp
      have hsteady := ih hfirst
      have hround := writeAt_effect hwrite
      exact ⟨hround.objects.trans hsteady.objects, hround.lives.trans hsteady.lives⟩

theorem characters_effect {p : Pointer} (h : (do return (← load o).characters) s = .ok p t) :
    s = t := by
  obtain ⟨obj, u, hload, hpure⟩ := bind_eq_ok_iff.mp h
  obtain ⟨_, rfl⟩ := load_eq_ok_iff.mp hload
  cases hpure
  rfl

theorem pure_effect {p q : Pointer} (h : (pure p : StoreM Pointer) s = .ok q t) : s = t := by
  cases h
  rfl

/-- The number of owners changes with the entry that changes. -/
theorem owners_set (ho : s.object o = some obj) (x : Option StringObject) :
    ({ s with objects := s.objects.set o x } : Store).owners +
        (if obj.characters.isSome then 1 else 0) =
      s.owners + (if hasArray x then 1 else 0) :=
  countP_set_add (Option.join_eq_some_iff.mp ho) x

theorem setCharacters_effect {p : Pointer} (ho : s.object o = some obj)
    (h : setCharacters o p s = .ok () t) :
    t.object o = some { obj with characters := p } ∧ (∀ i ≠ o, t.object i = s.object i) ∧
      lives t.memory = lives s.memory ∧
      t.owners + (if obj.characters.isSome then 1 else 0) =
        s.owners + (if p.isSome then 1 else 0) := by
  rw [setCharacters_apply ho] at h
  cases h
  exact ⟨object_put_self ho _, fun i hi => object_put_of_ne ho _ hi, rfl, owners_set ho _⟩

theorem setLength_effect {n : Int} (ho : s.object o = some obj)
    (h : setLength o n s = .ok () t) :
    t.object o = some { obj with length := n } ∧ (∀ i ≠ o, t.object i = s.object i) ∧
      lives t.memory = lives s.memory ∧ t.owners = s.owners := by
  rw [setLength_apply ho] at h
  cases h
  exact ⟨object_put_self ho _, fun i hi => object_put_of_ne ho _ hi, rfl,
    Nat.add_right_cancel (owners_set ho (some { obj with length := n }))⟩

end Effects

/-! ## Arrays of one object -/

/-- Of all objects, at most `o` has another pointer. Its old array has been freed
or not, and it has been given a new array or not. -/
structure Rearranged (freed new : Bool) (o : Nat) (s t : Store) : Prop where
  others : ∀ i ≠ o, t.pointer i = s.pointer i
  pointer : t.pointer o =
    if new then some (lives s.memory).length else if freed then none else s.pointer o
  lives : lives t.memory = release (if freed then s.pointer o else none)
    (lives s.memory ++ if new then [true] else [])
  released : freed = true → ∀ q, s.pointer o = some q →
    (ArrayMemory.lives s.memory ++ if new then [true] else [])[q]? = some true
  owners : t.owners + (if (s.pointer o).isSome then 1 else 0) =
    s.owners + (if (t.pointer o).isSome then 1 else 0)

namespace Rearranged

variable {s t u : Store} {freed new : Bool} {o : Nat}

/-- Nothing has changed but the values of units and of lengths. -/
theorem of_same (hpointer : ∀ i, t.pointer i = s.pointer i)
    (hlives : ArrayMemory.lives t.memory = ArrayMemory.lives s.memory)
    (howners : t.owners = s.owners) : Rearranged false false o s t where
  others i _ := hpointer i
  pointer := hpointer o
  lives := hlives.trans (List.append_nil _).symm
  released := nofun
  owners := by rw [howners, hpointer]

theorem then_same (h : Rearranged freed new o s t) (hpointer : ∀ i, u.pointer i = t.pointer i)
    (hlives : ArrayMemory.lives u.memory = ArrayMemory.lives t.memory)
    (howners : u.owners = t.owners) : Rearranged freed new o s u where
  others i hi := (hpointer i).trans (h.others i hi)
  pointer := (hpointer o).trans h.pointer
  lives := hlives.trans h.lives
  released := h.released
  owners := by rw [howners, hpointer, h.owners]

/-- The arrays and the owners change alike unless an array is left behind. -/
theorem count (h : Rearranged freed new o s t) :
    t.arrays + s.owners = s.arrays + t.owners +
      (if new = true ∧ freed = false ∧ s.pointer o ≠ none then 1 else 0) := by
  have howners := h.owners
  have hcount : t.arrays + (if (if freed then s.pointer o else none).isSome then 1 else 0) =
      s.arrays + (if new then 1 else 0) := by
    rw [Store.arrays, liveArrays, h.lives, count_release]
    · rw [List.count_append, Store.arrays, liveArrays]
      cases new <;> rfl
    · cases freed with
      | false => exact nofun
      | true => exact h.released rfl
  rw [h.pointer] at howners
  cases freed <;> cases new <;> cases hp : s.pointer o <;> simp [hp] at howners hcount ⊢ <;> omega

theorem length_of_pointer (hs : OwnsArrays s) {i q : Nat} (hq : s.pointer i = some q) :
    q < (ArrayMemory.lives s.memory).length :=
  (List.getElem?_eq_some_iff.mp (hs.allocated i q hq)).1

/-- Arrays that are not those of `o` stay. -/
theorem kept (h : Rearranged freed new o s t) {q : Nat} (hne : s.pointer o ≠ some q)
    (hq : (ArrayMemory.lives s.memory)[q]? = some true) :
    (ArrayMemory.lives t.memory)[q]? = some true := by
  have hreleased : (if freed then s.pointer o else none) ≠ some q := by
    cases freed with
    | false => exact nofun
    | true => exact hne
  rw [h.lives, getElem?_release_of_ne hreleased, List.getElem?_append_left, hq]
  exact (List.getElem?_eq_some_iff.mp hq).1

/-- The array that `o` has in the end is its old one or a new one. -/
theorem own (h : Rearranged freed new o s t) (hs : OwnsArrays s) {q : Nat}
    (hq : t.pointer o = some q) :
    (ArrayMemory.lives t.memory)[q]? = some true ∧
      (s.pointer o = some q ∨ (ArrayMemory.lives s.memory).length ≤ q) := by
  have hpointer := h.pointer.symm.trans hq
  have hlives := h.lives
  cases new with
  | true =>
      obtain rfl : (ArrayMemory.lives s.memory).length = q := Option.some.inj hpointer
      refine ⟨?_, .inr (Nat.le_refl _)⟩
      have hne : (if freed then s.pointer o else none) ≠
          some (ArrayMemory.lives s.memory).length := by
        intro heq
        cases freed with
        | false => cases heq
        | true => exact Nat.lt_irrefl _ (length_of_pointer hs heq)
      rw [hlives, getElem?_release_of_ne hne]
      exact List.getElem?_concat_length
  | false =>
      cases freed with
      | true => cases hpointer
      | false =>
          refine ⟨?_, .inl hpointer⟩
          rw [hlives]
          exact (congrArg (·[q]?) (List.append_nil _)).trans (hs.allocated o q hpointer)

theorem owns (h : Rearranged freed new o s t) (hs : OwnsArrays s) : OwnsArrays t := by
  have hother : ∀ {i q}, i ≠ o → t.pointer i = some q → s.pointer i = some q :=
    fun hi hq => (h.others _ hi).symm.trans hq
  -- An array of another object is neither the old one of `o` nor a new one.
  have hapart : ∀ {i q}, i ≠ o → t.pointer i = some q → t.pointer o ≠ some q := by
    intro i q hi hq ho
    rcases (h.own hs ho).2 with hold | hnew
    · exact hi (hs.distinct i o q (hother hi hq) hold)
    · exact absurd (length_of_pointer hs (hother hi hq)) (Nat.not_lt.mpr hnew)
  constructor
  · intro i q hq
    by_cases hi : i = o
    · subst hi
      exact (h.own hs hq).1
    · refine h.kept (fun ho => hi ?_) (hs.allocated i q (hother hi hq))
      exact hs.distinct i o q (hother hi hq) ho
  · intro i j q hi hj
    by_cases hio : i = o
    · subst hio
      by_contra hne
      exact hapart (Ne.symm hne) hj hi
    · by_cases hjo : j = o
      · subst hjo
        exact absurd hj (hapart hio hi)
      · exact hs.distinct i j q (hother hio hi) (hother hjo hj)

end Rearranged

/-! ## Methods -/

section Methods

variable {s t : Store} {this string : Nat}

theorem construct_rearranged {length : Int} {source : Nat → StoreM (BitVec 16)}
    (hsource : ∀ {i s t c}, source i s = .ok c t → s = t)
    (h : construct length source s = .ok () t) :
    Rearranged false true s.objects.length s t := by
  obtain ⟨_, _, hget, h⟩ := bind_eq_ok_iff.mp h
  cases hget
  rw [bind_of_ok (modify_apply _ _)] at h
  obtain ⟨array, s₂, hnew, h⟩ := bind_eq_ok_iff.mp h
  obtain ⟨rfl, hobjects, hlives⟩ := newArray_effect hnew
  have hpush : ∀ i, s₂.object i = (s.push ⟨none, length⟩).object i := object_congr hobjects
  have hthis : s₂.object s.objects.length = some ⟨none, length⟩ :=
    (hpush _).trans (object_push_self s _)
  obtain ⟨_, s₃, hset, h⟩ := bind_eq_ok_iff.mp h
  obtain ⟨hthis', hother, hsetLives, howners⟩ := setCharacters_effect hthis hset
  obtain ⟨obj, s₄, hload, hfill⟩ := bind_eq_ok_iff.mp h
  obtain ⟨_, rfl⟩ := load_eq_ok_iff.mp hload
  have hsteady := fill_effect characters_effect hsource hfill
  have hnone : s.pointer s.objects.length = none := by
    simp [Store.pointer, Store.object]
  have hpointer : t.pointer s.objects.length = some (lives s.memory).length :=
    pointer_eq ((object_congr hsteady.objects _).trans hthis')
  refine ⟨fun i hi => ?_, hpointer, ?_, nofun, ?_⟩
  · apply pointer_congr
    rw [object_congr hsteady.objects, hother i hi, hpush, object_push, if_neg hi]
  · exact hsteady.lives.trans (hsetLives.trans hlives)
  · have hnewOwners : s₂.owners = s.owners := by
      rw [Store.owners, hobjects, List.countP_append]
      rfl
    rw [hnone, hpointer, owners_congr hsteady.objects, ← hnewOwners]
    exact howners

/-- The last two statements of the appending methods: the object gets the new
array in place of the old one, which has been freed. -/
theorem replaced_rearranged {a : StringObject} {u v : Store} {n : Int}
    (hs : s.object this = some a) (hobjects : u.objects = s.objects)
    (hlives : lives u.memory = release a.characters (lives s.memory ++ [true]))
    (hreleased : ∀ q, a.characters = some q → (lives s.memory ++ [true])[q]? = some true)
    (hset : setCharacters this (some (lives s.memory).length) u = .ok () v)
    (hlength : setLength this n v = .ok () t) : Rearranged true true this s t := by
  obtain ⟨hthis, hother, hsetLives, hsetOwners⟩ :=
    setCharacters_effect ((object_congr hobjects this).trans hs) hset
  obtain ⟨hthis', hother', hlengthLives, hlengthOwners⟩ := setLength_effect hthis hlength
  have hpointer : t.pointer this = some (lives s.memory).length := pointer_eq hthis'
  refine ⟨fun i hi => pointer_congr ?_, hpointer, ?_, fun _ q hq => ?_, ?_⟩
  · rw [hother' i hi, hother i hi, object_congr hobjects]
  · rw [hlengthLives, hsetLives, hlives, if_pos rfl, if_pos rfl, pointer_eq hs]
  · rw [pointer_eq hs] at hq
    exact hreleased q hq
  · rw [pointer_eq hs, hpointer, hlengthOwners, hsetOwners, owners_congr hobjects]

theorem append_rearranged (h : append this string s = .ok () t) :
    ∃ b, Rearranged b b this s t := by
  obtain ⟨b, _, hload, h⟩ := bind_eq_ok_iff.mp h
  obtain ⟨_, rfl⟩ := load_eq_ok_iff.mp hload
  by_cases hne : b.length ≠ 0
  · rw [onlyIf_pos hne] at h
    simp only [bind_eq_ok_iff, load_eq_ok_iff, addLengths_eq_ok_iff, and_assoc, exists_and_left,
      exists_eq_left'] at h
    obtain ⟨_, _, _, _, _, array, s₁, hnew, _, _, _, s₂, hfirst, a, ha, _, s₃, hdelete, _, _, _,
      _, _, s₄, hsecond, _, s₅, hset, _, _, _, _, _, hlength⟩ := h
    obtain ⟨rfl, hnewObjects, hnewLives⟩ := newArray_effect hnew
    have hfirst' := fill_effect pure_effect characterAt_effect hfirst
    obtain ⟨hdeleteObjects, hdeleteLives, hreleased⟩ := deleteArray_effect hdelete
    have hsecond' := fill_effect pure_effect characterAt_effect hsecond
    have hold : s₂.objects = s.objects := hfirst'.objects.trans hnewObjects
    have hlives : lives s₂.memory = lives s.memory ++ [true] := hfirst'.lives.trans hnewLives
    have hs : s.object this = some a := (object_congr hold this).symm.trans ha
    rw [hlives] at hdeleteLives hreleased
    exact ⟨true, replaced_rearranged hs (hsecond'.objects.trans (hdeleteObjects.trans hold))
      (hsecond'.lives.trans hdeleteLives) hreleased hset hlength⟩
  · rw [onlyIf_neg hne] at h
    cases h
    exact ⟨false, .of_same (fun _ => rfl) rfl rfl⟩

theorem appendUnit_rearranged {nbr : CInt} (h : appendUnit this nbr s = .ok () t) :
    Rearranged true true this s t := by
  unfold appendUnit at h
  simp only [bind_eq_ok_iff, load_eq_ok_iff, addLengths_eq_ok_iff, and_assoc, exists_and_left,
    exists_eq_left'] at h
  obtain ⟨_, _, _, array, s₁, hnew, a, ha, _, s₂, hold, _, _, _, s₃, hwrite, _, s₄, hset, _, _,
    _, hlength⟩ := h
  obtain ⟨rfl, hnewObjects, hnewLives⟩ := newArray_effect hnew
  have hold' : s₂.objects = s₁.objects ∧
      lives s₂.memory = release a.characters (lives s₁.memory) ∧
      ∀ q, a.characters = some q → (lives s₁.memory)[q]? = some true := by
    by_cases hne : a.characters ≠ none
    · rw [onlyIf_pos hne] at hold
      simp only [bind_eq_ok_iff, load_eq_ok_iff, and_assoc, exists_and_left,
        exists_eq_left'] at hold
      obtain ⟨_, _, _, u, hfill, a', hu, hdelete⟩ := hold
      have hfill' := fill_effect pure_effect characterAt_effect hfill
      obtain rfl : a = a' :=
        Option.some.inj ((ha.symm.trans (object_congr hfill'.objects this).symm).trans hu)
      obtain ⟨hdeleteObjects, hdeleteLives, hreleased⟩ := deleteArray_effect hdelete
      rw [hfill'.lives] at hdeleteLives hreleased
      exact ⟨hdeleteObjects.trans hfill'.objects, hdeleteLives, hreleased⟩
    · rw [onlyIf_neg hne] at hold
      cases hold
      rw [not_not.mp hne]
      exact ⟨rfl, rfl, nofun⟩
  obtain ⟨holdObjects, holdLives, hreleased⟩ := hold'
  have hwrite' := writeAt_effect hwrite
  have hs : s.object this = some a := (object_congr hnewObjects this).symm.trans ha
  rw [hnewLives] at holdLives hreleased
  exact replaced_rearranged hs (hwrite'.objects.trans (holdObjects.trans hnewObjects))
    (hwrite'.lives.trans holdLives) hreleased hset hlength

/-- `delete[] characters` and what makes the pointer null. -/
theorem free_rearranged {a : StringObject} (ha : s.object this = some a)
    (h : (do
      onMemory (deleteArray (← load this).characters)
      setCharacters this none) s = .ok () t) :
    Rearranged true false this s t ∧ t.object this = some ⟨none, a.length⟩ ∧
      ∀ i ≠ this, t.object i = s.object i := by
  simp only [bind_eq_ok_iff, load_eq_ok_iff, and_assoc, exists_and_left, exists_eq_left'] at h
  obtain ⟨a', ha', _, u, hdelete, hset⟩ := h
  obtain rfl : a = a' := Option.some.inj (ha.symm.trans ha')
  obtain ⟨hobjects, hlives, hreleased⟩ := deleteArray_effect hdelete
  obtain ⟨hthis, hother, hsetLives, hsetOwners⟩ :=
    setCharacters_effect ((object_congr hobjects this).trans ha) hset
  have hothers : ∀ i ≠ this, t.object i = s.object i := fun i hi =>
    (hother i hi).trans (object_congr hobjects i)
  have hpointer : t.pointer this = none := pointer_eq hthis
  refine ⟨⟨fun i hi => pointer_congr (hothers i hi), hpointer, ?_, fun _ q hq => ?_, ?_⟩, hthis,
    hothers⟩
  · rw [hsetLives, hlives, pointer_eq ha]
    exact congrArg (release _) (List.append_nil _).symm
  · rw [pointer_eq ha] at hq
    exact (congrArg (·[q]?) (List.append_nil _)).trans (hreleased q hq)
  · rw [pointer_eq ha, hpointer, hsetOwners, owners_congr hobjects]

/-- The destructor frees the array before the object is removed. -/
theorem destroy_rearranged (h : destroy this s = .ok () t) : ∃ b, Rearranged b false this s t := by
  obtain ⟨a, _, hload, h⟩ := bind_eq_ok_iff.mp h
  obtain ⟨ha, rfl⟩ := load_eq_ok_iff.mp hload
  obtain ⟨_, u, hfree, hend⟩ := bind_eq_ok_iff.mp h
  have hfreed : ∃ b a', Rearranged b false this s u ∧ u.object this = some a' ∧
      a'.characters = none := by
    by_cases hne : a.characters ≠ none
    · rw [onlyIf_pos hne] at hfree
      obtain ⟨hfreed, hthis, _⟩ := free_rearranged ha hfree
      exact ⟨true, _, hfreed, hthis, rfl⟩
    · rw [onlyIf_neg hne] at hfree
      cases hfree
      exact ⟨false, a, .of_same (fun _ => rfl) rfl rfl, ha, not_not.mp hne⟩
  obtain ⟨b, a', hfreed, hthis, hnone⟩ := hfreed
  cases hend
  refine ⟨b, hfreed.then_same (fun i => ?_) rfl ?_⟩
  · have hentry := entry_set (lt_length_of_entry hthis) none i
    by_cases hi : i = this
    · rw [if_pos hi] at hentry
      rw [Store.pointer, Store.object, hentry, hi, pointer_eq hthis, hnone]
      rfl
    · rw [if_neg hi] at hentry
      exact pointer_congr hentry
  · have howners := owners_set hthis none
    simpa [hnone, hasArray] using howners

/-- The first part of an assignment leaves a pointer to an array only when the
object had an array and no units. -/
theorem clear_rearranged {a : StringObject} (ha : s.object this = some a)
    (h : onlyIf (a.length ≠ 0) (do
      onMemory (deleteArray (← load this).characters)
      setCharacters this none) s = .ok () t) :
    ∃ b p, Rearranged b false this s t ∧ t.object this = some ⟨p, a.length⟩ ∧
      (∀ i ≠ this, t.object i = s.object i) ∧ (p ≠ none ↔ a.length = 0 ∧ a.characters ≠ none) := by
  by_cases hne : a.length ≠ 0
  · rw [onlyIf_pos hne] at h
    obtain ⟨hfreed, hthis, hother⟩ := free_rearranged ha h
    exact ⟨true, none, hfreed, hthis, hother, by simp [hne]⟩
  · rw [onlyIf_neg hne] at h
    cases h
    exact ⟨false, a.characters, .of_same (fun _ => rfl) rfl rfl, ha, fun _ _ => rfl,
      by simp [not_not.mp hne]⟩

/-- The object gets a new array, and the array it may still have is not freed. -/
theorem given_rearranged {a : StringObject} {n : Int} {source : Nat → StoreM (BitVec 16)}
    (hsource : ∀ {i s t c}, source i s = .ok c t → s = t) (ha : s.object this = some a)
    (h : (do
      let array ← onMemory (newArray n)
      setCharacters this (some array)
      fill (return (← load this).characters) 0 source (← load this).length.toNat) s =
        .ok () t) :
    Rearranged false true this s t := by
  simp only [bind_eq_ok_iff, load_eq_ok_iff, and_assoc, exists_and_left, exists_eq_left'] at h
  obtain ⟨array, u, hnew, _, v, hset, _, _, hfill⟩ := h
  obtain ⟨rfl, hobjects, hlives⟩ := newArray_effect hnew
  obtain ⟨hthis, hother, hsetLives, hsetOwners⟩ :=
    setCharacters_effect ((object_congr hobjects this).trans ha) hset
  have hsteady := fill_effect characters_effect hsource hfill
  have hpointer : t.pointer this = some (lives s.memory).length :=
    pointer_eq ((object_congr hsteady.objects _).trans hthis)
  refine ⟨fun i hi => pointer_congr ?_, hpointer, ?_, nofun, ?_⟩
  · rw [object_congr hsteady.objects, hother i hi, object_congr hobjects]
  · exact hsteady.lives.trans (hsetLives.trans hlives)
  · rw [pointer_eq ha, hpointer, owners_congr hsteady.objects, hsetOwners, owners_congr hobjects]

/-- An assignment frees the old array or not, and then gives a new one or not. An
array is left behind exactly when a pointer is overwritten. -/
theorem assign_rearranged (h : assign this string s = .ok () t) :
    ∃ b new u, Rearranged b false this s u ∧ Rearranged false new this u t ∧
      (Overwrites s (.assign this string) ↔ new = true ∧ u.pointer this ≠ none) := by
  obtain ⟨a, _, hload, h⟩ := bind_eq_ok_iff.mp h
  obtain ⟨ha, rfl⟩ := load_eq_ok_iff.mp hload
  obtain ⟨_, s₁, hclear, h⟩ := bind_eq_ok_iff.mp h
  obtain ⟨cleared, p, hcleared, hthis, hother, hp⟩ := clear_rearranged ha hclear
  obtain ⟨b₁, _, hload₁, h⟩ := bind_eq_ok_iff.mp h
  obtain ⟨hb₁, rfl⟩ := load_eq_ok_iff.mp hload₁
  obtain ⟨_, s₂, hlength, h⟩ := bind_eq_ok_iff.mp h
  obtain ⟨hthis', hother', hlives, howners⟩ := setLength_effect hthis hlength
  obtain ⟨b, _, hload₂, h⟩ := bind_eq_ok_iff.mp h
  obtain ⟨hb, rfl⟩ := load_eq_ok_iff.mp hload₂
  rw [bind_of_ok (load_apply hb)] at h
  have hpointer : s₂.pointer this = p := pointer_eq hthis'
  have hfirst : Rearranged cleared false this s s₂ := by
    refine hcleared.then_same (fun i => ?_) hlives howners
    by_cases hi : i = this
    · rw [hi, hpointer, pointer_eq hthis]
    · exact pointer_congr (hother' i hi)
  -- Another object is as it was.
  have hsource : string ≠ this → s.object string = some b := fun hne => by
    rw [← hother string hne, ← hother' string hne, hb]
  by_cases hcond : b.length ≠ 0 ∧ b.characters ≠ none
  · rw [onlyIf_pos hcond, bind_of_ok (load_apply hb)] at h
    refine ⟨cleared, true, s₂, hfirst, given_rearranged characterAt_effect hthis' h, ?_⟩
    have hs : s.object string = some b := by
      by_cases hsame : string = this
      · subst hsame
        obtain rfl := Option.some.inj (hb₁.symm.trans hthis)
        obtain rfl := Option.some.inj (hb.symm.trans hthis')
        exact absurd (hp.mp hcond.2).1 hcond.1
      · exact hsource hsame
    simp only [Overwrites, ha, hs, hpointer, hp, Option.mem_def, Option.some.injEq,
      exists_eq_left']
    tauto
  · rw [onlyIf_neg hcond] at h
    cases h
    refine ⟨cleared, false, _, hfirst, .of_same (fun _ => rfl) rfl rfl, ?_⟩
    refine iff_of_false ?_ nofun
    rintro ⟨a', ha', b', hb', hzero, _, hlen, hchars⟩
    have hne : string ≠ this := by
      rintro rfl
      rw [Option.some.inj (ha'.symm.trans hb')] at hzero
      exact hlen hzero
    obtain rfl := Option.some.inj (hb'.symm.trans (hsource hne))
    exact hcond ⟨hlen, hchars⟩

end Methods

/-! ## Programs -/

section Programs

variable {s t : Store} {e : Operation} {es : List Operation}

/-- What an operation that returns does to the arrays. -/
structure Accounted (lost : Nat) (s t : Store) : Prop where
  count : t.arrays + s.owners = s.arrays + t.owners + lost
  owns : OwnsArrays s → OwnsArrays t

theorem Rearranged.accounted {freed new : Bool} {o : Nat} (h : Rearranged freed new o s t)
    (hlost : new = true → freed = true ∨ s.pointer o = none) : Accounted 0 s t := by
  refine ⟨?_, h.owns⟩
  rw [h.count, if_neg]
  rintro ⟨hnew, hfreed, hpointer⟩
  rcases hlost hnew with htrue | hnone
  · cases hfreed.symm.trans htrue
  · exact hpointer hnone

/-- Without a new array, none is left behind. -/
theorem Rearranged.accounted_of_old {freed : Bool} {o : Nat}
    (h : Rearranged freed false o s t) : Accounted 0 s t := by
  apply h.accounted
  intro hnew
  cases hnew

theorem run_accounted (h : e.run s = .ok () t) :
    Accounted (if Overwrites s e then 1 else 0) s t := by
  have hnone : s.pointer s.objects.length = none := by
    simp [Store.pointer, Store.object]
  cases e with
  | default =>
      cases h
      have hsame : Rearranged false false s.objects.length s (s.push {}) := by
        refine .of_same (fun i => ?_) rfl ?_
        · rw [Store.pointer, object_push]
          split_ifs with hi
          · rw [hi, hnone]
            rfl
          · rfl
        · rw [Store.owners, Store.push, List.countP_append]
          rfl
      exact hsame.accounted_of_old
  | ofString str =>
      exact (construct_rearranged (fun h => by cases h; rfl) h).accounted fun _ => .inr hnone
  | ofUnits utf16String length =>
      exact (construct_rearranged unitAt_effect h).accounted fun _ => .inr hnone
  | copy str =>
      obtain ⟨b, _, hload, h⟩ := bind_eq_ok_iff.mp h
      obtain ⟨_, rfl⟩ := load_eq_ok_iff.mp hload
      exact (construct_rearranged characterAt_effect h).accounted fun _ => .inr hnone
  | assign this string =>
      obtain ⟨b, new, u, hfirst, hsecond, hiff⟩ := assign_rearranged h
      have hcleared := hfirst.accounted_of_old
      refine ⟨?_, fun hs => hsecond.owns (hcleared.owns hs)⟩
      have hcount := hsecond.count
      have hlost : (new = true ∧ false = false ∧ u.pointer this ≠ none) ↔
          Overwrites s (.assign this string) := by
        rw [hiff]
        simp
      rw [if_congr hlost rfl rfl] at hcount
      have hclearedCount := hcleared.count
      omega
  | append this string | plusAssign this string =>
      obtain ⟨b, hrearranged⟩ := append_rearranged h
      exact hrearranged.accounted .inl
  | appendUnit this nbr => exact (appendUnit_rearranged h).accounted .inl
  | destroy this =>
      obtain ⟨b, hrearranged⟩ := destroy_rearranged h
      exact hrearranged.accounted_of_old

/-- A step that does not go wrong. -/
theorem step_accounted (hs : step s e = some t) (hsound : t.fault = none) :
    Accounted (if Overwrites s e then 1 else 0) s t := by
  unfold step at hs
  split_ifs at hs
  cases hrun : e.run s with
  | ok _ u =>
      rw [hrun] at hs
      cases hs
      exact run_accounted hrun
  | error f u =>
      rw [hrun] at hs
      cases hs
      cases hsound

/-- Nothing is done behind a fault. -/
theorem sound_of_run (run : GuardedRun step Unguarded s es t) (h : t.fault = none) :
    s.fault = none := by
  cases run with
  | refl => exact h
  | cons _ hs _ =>
      unfold step at hs
      split_ifs at hs with hvalid
      exact hvalid.1

theorem accounted_of_run (run : GuardedRun step Unguarded s es t) (hsound : t.fault = none) :
    Accounted (overwritten s es) s t := by
  induction run with
  | refl s => exact ⟨rfl, id⟩
  | @cons s u t e es _ hs rest ih =>
      have hstep := step_accounted hs (sound_of_run rest hsound)
      have hrest := ih hsound
      refine ⟨?_, fun h => hrest.owns (hstep.owns h)⟩
      have hstepCount := hstep.count
      have hrestCount := hrest.count
      rw [overwritten, hs]
      dsimp only
      omega

/-- In every program without a fault, the live objects have allocated arrays of
their own, and the arrays that are still allocated are those and one for each
assignment that overwrote a pointer. -/
theorem arrays_accounted (run : GuardedRun step Unguarded {} es t) (hsound : t.fault = none) :
    OwnsArrays t ∧ liveArrays t.memory = t.owners + overwritten {} es := by
  have hrun := accounted_of_run run hsound
  refine ⟨hrun.owns ⟨nofun, nofun⟩, ?_⟩
  have hcount := hrun.count
  simpa [Store.arrays, Store.owners, liveArrays, lives] using hcount

/-- An empty string with an array is assigned "a" and both are destroyed: one array is lost. -/
theorem arrays_accounted_overwritten :
    ∃ t : Store, GuardedRun step Unguarded {} [.ofString [], .ofString [0x61], .assign 0 1,
      .destroy 0, .destroy 1] t ∧ t.fault = none ∧ OwnsArrays t ∧
      liveArrays t.memory = t.owners + overwritten {} [.ofString [], .ofString [0x61],
        .assign 0 1, .destroy 0, .destroy 1] ∧ liveArrays t.memory = 1 := by
  obtain ⟨t, hrun, hsound, hone⟩ := exists_guardedRun step Unguarded {}
    [.ofString [], .ofString [0x61], .assign 0 1, .destroy 0, .destroy 1]
    (fun t => t.fault = none ∧ liveArrays t.memory = 1) (by decide +kernel)
  obtain ⟨howns, hcount⟩ := arrays_accounted hrun hsound
  exact ⟨t, hrun, hsound, howns, hcount, hone⟩

end Programs

end CarpetSrv.Utils.UTF16Storage
