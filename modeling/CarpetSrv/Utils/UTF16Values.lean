import CarpetSrv.Utils.UTF16Storage

/-!
# UTF-16 strings as sequences

A program on `UTF16String` objects computes on their arrays what it computes
on sequences of units, as long as it neither assigns nor appends a non-empty
object to itself and keeps its lengths within an `int`. `Represents` is the
relation between the two.
-/

namespace CarpetSrv.Utils.UTF16Storage

open Foundation Foundation.ExceptState Foundation.ArrayMemory

/-- The sequences of the objects constructed so far, without those of destroyed objects. -/
abbrev Values := List (Option UTF16String)

def Values.value (vals : Values) (o : Nat) : Option UTF16String := vals[o]?.join

/-- One operation on sequences: assignment copies, appending concatenates. -/
def stepValues (vals : Values) : Operation → Option Values
  | .default => some (vals ++ [some []])
  | .ofString str => some (vals ++ [some (UTF16String.ofString str)])
  | .ofUnits utf16String length => some (vals ++ [some (utf16String.take length.toInt.toNat)])
  | .copy str => (vals.value str).map fun us => vals ++ [some us]
  | .assign this string => do
      let _ ← vals.value this
      let vs ← vals.value string
      return vals.set this (some vs)
  | .append this string | .plusAssign this string => do
      let us ← vals.value this
      let vs ← vals.value string
      return vals.set this (some (us.append vs))
  | .appendUnit this nbr => (vals.value this).map fun us => vals.set this (some (us.appendUnit nbr))
  | .destroy this => (vals.value this).map fun _ => vals.set this none

/-- The sequences that a program computes. -/
def runValues (es : List Operation) : Option Values := es.foldlM stepValues []

/-- The `length` of an object. -/
def Store.lengthOf (s : Store) (o : Nat) : Int := ((s.object o).map StringObject.length).getD 0

/-- No object with units is assigned or appended to itself, every length is an
`int`, and a unit array has the length that its constructor is given. -/
def Proper (s : Store) : Operation → Prop
  | .ofString str => str.length ≤ intMax
  | .ofUnits utf16String length => 0 ≤ length.toInt ∧ length.toInt ≤ utf16String.length
  | .assign this string => this = string → s.lengthOf this = 0
  | .append this string | .plusAssign this string =>
      (this = string → s.lengthOf this = 0) ∧ s.lengthOf this + s.lengthOf string ≤ intMax
  | .appendUnit this _ => s.lengthOf this + 1 ≤ intMax
  | .default | .copy _ | .destroy _ => True

/-- No fault has happened, and each object holds its sequence in an array of its own. -/
structure Represents (s : Store) (vals : Values) : Prop where
  sound : s.fault = none
  count : s.objects.length = vals.length
  alive : ∀ o, (s.object o).isSome = (vals.value o).isSome
  holds : ∀ o obj us, s.object o = some obj → vals.value o = some us →
    obj.length = us.length ∧ Holds s.memory obj.characters us
  owned : ∀ o o' obj obj' q, s.object o = some obj → s.object o' = some obj' →
    obj.characters = some q → obj'.characters = some q → o = o'

/-! ## Changing one object -/

namespace Represents

variable {s : Store} {vals : Values} {o : Nat} {obj : StringObject}

/-- A live object has a sequence. -/
theorem exists_value (h : Represents s vals) (ho : s.object o = some obj) :
    ∃ us, vals.value o = some us ∧ obj.length = us.length ∧ Holds s.memory obj.characters us := by
  have hsome : (vals.value o).isSome = true := by
    rw [← h.alive o, ho]
    rfl
  obtain ⟨us, hus⟩ := Option.isSome_iff_exists.mp hsome
  exact ⟨us, hus, h.holds o obj us ho hus⟩

theorem exists_object (h : Represents s vals) (ho : (s.object o).isSome = true) :
    ∃ obj us, s.object o = some obj ∧ vals.value o = some us ∧ obj.length = us.length ∧
      Holds s.memory obj.characters us := by
  obtain ⟨obj, hobj⟩ := Option.isSome_iff_exists.mp ho
  obtain ⟨us, hus⟩ := h.exists_value hobj
  exact ⟨obj, us, hobj, hus⟩

/-- One object is replaced, and memory changes only in its old array and in
new ones. Every other object keeps its sequence. -/
theorem replace {t : Store} {vals' : Values} {x : Option StringObject}
    {y : Option UTF16String} {p : Pointer} (h : Represents s vals)
    (hp : ∀ q, p = some q → ∃ obj, s.object o = some obj ∧ obj.characters = some q)
    (hsound : t.fault = none) (hcount : t.objects.length = vals'.length)
    (hobject : ∀ i, t.object i = if i = o then x else s.object i)
    (hvalue : ∀ i, vals'.value i = if i = o then y else vals.value i)
    (hframe : Frame p s.memory t.memory) (halive : x.isSome = y.isSome)
    (hholds : ∀ obj us, x = some obj → y = some us →
      obj.length = us.length ∧ Holds t.memory obj.characters us)
    (hfresh : ∀ obj, x = some obj → ∀ q < s.memory.length, obj.characters = some q → p = some q) :
    Represents t vals' := by
  -- No other object points to the old array.
  have hother : ∀ i obj q, i ≠ o → s.object i = some obj → obj.characters = some q →
      q < s.memory.length ∧ p ≠ some q := by
    intro i obj q hi hio hq
    obtain ⟨us, _, _, hown⟩ := h.exists_value hio
    rw [hq] at hown
    refine ⟨hown.lt_length, fun hpq => ?_⟩
    obtain ⟨old, hold, hq'⟩ := hp q hpq
    exact hi (h.owned i o obj old q hio hold hq hq')
  refine ⟨hsound, hcount, ?_, ?_, ?_⟩
  · intro i
    rw [hobject, hvalue]
    by_cases hi : i = o
    · rw [if_pos hi, if_pos hi, halive]
    · rw [if_neg hi, if_neg hi, h.alive]
  · intro i obj us hio hus
    rw [hobject] at hio
    rw [hvalue] at hus
    by_cases hi : i = o
    · rw [if_pos hi] at hio hus
      exact hholds obj us hio hus
    · rw [if_neg hi] at hio hus
      obtain ⟨hlen, hown⟩ := h.holds i obj us hio hus
      exact ⟨hlen, hown.frame hframe fun q hq => (hother i obj q hi hio hq).2⟩
  · intro i j a b q hia hjb hqa hqb
    rw [hobject] at hia hjb
    by_cases hi : i = o <;> by_cases hj : j = o
    · rw [hi, hj]
    · rw [if_pos hi] at hia
      rw [if_neg hj] at hjb
      obtain ⟨hlt, hne⟩ := hother j b q hj hjb hqb
      exact absurd (hfresh a hia q hlt hqa) hne
    · rw [if_neg hi] at hia
      rw [if_pos hj] at hjb
      obtain ⟨hlt, hne⟩ := hother i a q hi hia hqa
      exact absurd (hfresh b hjb q hlt hqb) hne
    · rw [if_neg hi] at hia
      rw [if_neg hj] at hjb
      exact h.owned i j a b q hia hjb hqa hqb

theorem lt_length_values (h : Represents s vals) (ho : s.object o = some obj) :
    o < vals.length := by
  rw [← h.count]
  exact lt_length_of_entry ho

/-- One object is given another array, which is new or was its own. -/
theorem put (h : Represents s vals) (ho : s.object o = some obj) {obj' : StringObject}
    {us' : UTF16String} {memory : Memory (BitVec 16)}
    (hframe : Frame obj.characters s.memory memory) (hlen : obj'.length = us'.length)
    (hholds : Holds memory obj'.characters us')
    (hfresh : ∀ q < s.memory.length, obj'.characters = some q → obj.characters = some q) :
    Represents ({ s with memory := memory }.put o obj') (vals.set o (some us')) := by
  apply h.replace (o := o) (x := some obj') (y := some us') (p := obj.characters)
  case hp => exact fun q hq => ⟨obj, ho, hq⟩
  case hsound => exact h.sound
  case hcount => simp [Store.put, h.count]
  case hobject => exact fun i => object_put (s := { s with memory := memory }) ho obj' i
  case hvalue => exact entry_set (h.lt_length_values ho) (some us')
  case hframe => exact hframe
  case halive => rfl
  case hholds =>
    rintro _ _ ⟨⟩ ⟨⟩
    exact ⟨hlen, hholds⟩
  case hfresh =>
    rintro _ ⟨⟩
    exact hfresh

/-- A new object is given a new array. -/
theorem concat (h : Represents s vals) {obj : StringObject} {us : UTF16String}
    {memory : Memory (BitVec 16)} (hframe : Frame none s.memory memory)
    (hlen : obj.length = us.length) (hholds : Holds memory obj.characters us)
    (hfresh : ∀ q < s.memory.length, obj.characters ≠ some q) :
    Represents { s.push obj with memory := memory } (vals ++ [some us]) := by
  apply h.replace (o := s.objects.length) (x := some obj) (y := some us) (p := none)
  case hp => nofun
  case hsound => exact h.sound
  case hcount => simp [Store.push, h.count]
  case hobject => exact object_push s obj
  case hvalue =>
    rw [h.count]
    exact entry_concat vals (some us)
  case hframe => exact hframe
  case halive => rfl
  case hholds =>
    rintro _ _ ⟨⟩ ⟨⟩
    exact ⟨hlen, hholds⟩
  case hfresh =>
    rintro _ ⟨⟩ q hlt hq
    exact absurd hq (hfresh q hlt)

/-- One object is destroyed, and its array may be changed. -/
theorem remove (h : Represents s vals) (ho : s.object o = some obj)
    {memory : Memory (BitVec 16)} (hframe : Frame obj.characters s.memory memory) :
    Represents { s with objects := s.objects.set o none, memory := memory }
      (vals.set o none) := by
  apply h.replace (o := o) (x := none) (y := none) (p := obj.characters)
  case hp => exact fun q hq => ⟨obj, ho, hq⟩
  case hsound => exact h.sound
  case hcount => simp [h.count]
  case hobject => exact entry_set (lt_length_of_entry ho) none
  case hvalue => exact entry_set (h.lt_length_values ho) none
  case hframe => exact hframe
  case halive => rfl
  case hholds => nofun
  case hfresh => nofun

end Represents

/-! ## The methods -/

/-- In `t` the objects of `s` and their arrays are as they were. -/
structure Extends (s t : Store) : Prop where
  object : ∀ o obj, s.object o = some obj → t.object o = some obj
  frame : Frame none s.memory t.memory

section Methods

variable {s : Store} {vals : Values} {o : Nat} {obj : StringObject} {us : UTF16String}

theorem Extends.characterAt {t : Store} (h : Extends s t) (ho : s.object o = some obj)
    (hus : Holds s.memory obj.characters us) {i : Nat} (hi : i < us.length) :
    characterAt o i t = .ok us[i] t :=
  characterAt_apply (h.object o obj ho) (hus.frame h.frame nofun) hi

/-- The constructors and the assignment give an object a new array and fill it. -/
theorem newUnits_ok {t u : Store} (ho : t.object o = some obj) (hlen : obj.length = us.length)
    (hu : t.put o ⟨some t.memory.length, obj.length⟩ = u) {source : Nat → StoreM (BitVec 16)}
    (hsource : ∀ c i, (hi : i < us.length) →
      source i (u.withArray c) = .ok us[i] (u.withArray c)) :
    ∃ c, (do
        let array ← onMemory (newArray obj.length)
        setCharacters o (some array)
        fill (return (← load o).characters) 0 source (← load o).length.toNat) t =
          .ok () (u.withArray c) ∧ Contains c 0 us := by
  subst hu
  let u := t.put o ⟨some t.memory.length, obj.length⟩
  let fresh : List (Option (BitVec 16)) := List.replicate obj.length.toNat none
  have hof : (t.withArray fresh).object o = some obj := ho
  have hthis : ∀ c, (u.withArray c).object o = some ⟨some t.memory.length, obj.length⟩ :=
    fun _ => object_put_self ho _
  have htarget : ∀ c, (do return (← load o).characters : StoreM Pointer) (u.withArray c) =
      .ok (some t.memory.length) (u.withArray c) :=
    fun c => bind_of_ok (load_apply (hthis c)) _
  have hroom : 0 + us.length ≤ fresh.length := by
    rw [List.length_replicate]
    omega
  obtain ⟨c, hfill, _, hcontains, _⟩ := fill_ok hlen hroom htarget hsource
  refine ⟨c, ?_, hcontains⟩
  refine bind_ok (newArray_withArray (by omega) t) (bind_ok (setCharacters_apply hof _) ?_)
  exact bind_ok (load_apply (hthis fresh)) hfill

/-- A constructor makes an object with the units that its source returns. -/
theorem construct_ok (h : Represents s vals) {source : Nat → StoreM (BitVec 16)}
    (hsource : ∀ t, Extends s t → ∀ i, (hi : i < us.length) → source i t = .ok us[i] t) :
    ∃ t, construct us.length source s = .ok () t ∧ Represents t (vals ++ [some us]) := by
  let obj : StringObject := ⟨some s.memory.length, us.length⟩
  have hframe : ∀ c, Frame none s.memory ((s.push obj).withArray c).memory :=
    fun c => (Frame.refl none s.memory).append (Nat.le_refl _) [⟨true, c⟩]
  have hextends : ∀ c, Extends s ((s.push obj).withArray c) := by
    refine fun c => ⟨fun o other ho => ?_, hframe c⟩
    have hne : o ≠ s.objects.length := Nat.ne_of_lt (lt_length_of_entry ho)
    exact (object_push s obj o).trans ((if_neg hne).trans ho)
  have hthis := object_push_self s ⟨none, us.length⟩
  have hput := put_push s ⟨none, us.length⟩ obj
  obtain ⟨c, hnew, hcontains⟩ := newUnits_ok hthis rfl hput fun c => hsource _ (hextends c)
  refine ⟨(s.push obj).withArray c, bind_ok (get_apply s) (bind_ok (modify_apply _ s) hnew), ?_⟩
  exact h.concat (hframe c) rfl (holds_newest hcontains) (by simp [obj]; omega)

theorem set_value (hus : vals.value o = some us) : vals.set o (some us) = vals := by
  have hentry : vals[o]? = some (some us) := Option.join_eq_some_iff.mp hus
  obtain ⟨hlt, hget⟩ := List.getElem?_eq_some_iff.mp hentry
  rw [← hget, List.set_getElem_self]

theorem characterAt_withArray (ho : s.object o = some obj) (h : Holds s.memory obj.characters us)
    (c : List (Option (BitVec 16))) {i : Nat} (hi : i < us.length) :
    characterAt o i (s.withArray c) = .ok us[i] (s.withArray c) :=
  characterAt_apply (s := s.withArray c) ho
    (h.frame ((Frame.refl none _).append (Nat.le_refl _) _) nofun) hi

/-- The units of an object are copied behind those that the newest array holds already. -/
theorem copyUnits_ok {vs : UTF16String} (ho : s.object o = some obj) (hlen : obj.length = vs.length)
    (h : Holds s.memory obj.characters vs) {cells : List (Option (BitVec 16))}
    (hus : Contains cells 0 us) (hroom : us.length + vs.length ≤ cells.length) :
    ∃ c, fill (return some s.memory.length) us.length (characterAt o) obj.length.toNat
        (s.withArray cells) = .ok () (s.withArray c) ∧
      c.length = cells.length ∧ Contains c 0 (us ++ vs) := by
  have htarget : ∀ c, (return some s.memory.length : StoreM Pointer) (s.withArray c) =
      .ok (some s.memory.length) (s.withArray c) := fun _ => rfl
  obtain ⟨c, hcopy, hc, hcontains, hbefore⟩ := fill_ok hlen hroom htarget
    (fun c i hi => characterAt_withArray ho h c hi)
  refine ⟨c, hcopy, hc, Contains.append (fun i hi => ?_) hcontains⟩
  rw [Nat.zero_add, hbefore i hi, ← hus i hi, Nat.zero_add]

/-- Both ways of appending copy the units of the object to the new array and
free the old one. -/
theorem moveUnits_ok (ho : s.object o = some obj) (hlen : obj.length = us.length)
    (h : Holds s.memory obj.characters us) {cells : List (Option (BitVec 16))}
    (hroom : us.length ≤ cells.length) :
    ∃ c, fill (return some s.memory.length) 0 (characterAt o) obj.length.toNat
        (s.withArray cells) = .ok () (s.withArray c) ∧
      onMemory (deleteArray obj.characters) (s.withArray c) =
        .ok () ((s.free obj.characters).withArray c) ∧
      c.length = cells.length ∧ Contains c 0 us := by
  have hroom' : ([] : UTF16String).length + us.length ≤ cells.length := by
    rw [List.length_nil, Nat.zero_add]
    exact hroom
  obtain ⟨c, hcopy, hc, hcontains⟩ := copyUnits_ok ho hlen h (.nil cells 0) hroom'
  have hown : Holds (s.withArray c).memory obj.characters us :=
    h.frame ((Frame.refl none _).append (Nat.le_refl _) _) nofun
  have hdelete := deleteArray_free hown
  rw [free_withArray h] at hdelete
  exact ⟨c, hcopy, hdelete, hc, hcontains⟩

/-- An object without an array has no units to be copied. -/
theorem moveIfAny_ok (ho : s.object o = some obj) (hlen : obj.length = us.length)
    (h : Holds s.memory obj.characters us) {cells : List (Option (BitVec 16))}
    (hroom : us.length ≤ cells.length) :
    ∃ c, onlyIf (obj.characters ≠ none) (do
        fill (return some s.memory.length) 0 (characterAt o) (← load o).length.toNat
        onMemory (deleteArray (← load o).characters)) (s.withArray cells) =
          .ok () ((s.free obj.characters).withArray c) ∧
      c.length = cells.length ∧ Contains c 0 us := by
  by_cases hp : obj.characters ≠ none
  · obtain ⟨c, hcopy, hdelete, hc, hcontains⟩ := moveUnits_ok ho hlen h hroom
    refine ⟨c, (onlyIf_pos hp _ _).trans ?_, hc, hcontains⟩
    exact bind_ok (load_apply ho) (bind_ok hcopy (bind_ok (load_apply ho) hdelete))
  · have hnone : obj.characters = none := not_not.mp hp
    rw [hnone] at h
    obtain rfl : us = [] := h
    refine ⟨cells, (onlyIf_neg hp _ _).trans ?_, rfl, .nil cells 0⟩
    rw [hnone]
    rfl

/-- Both ways of appending set the pointer first and the length last. -/
theorem setLength_put (ho : s.object o = some obj) (p : Pointer) (n : Int) :
    setLength o n (s.put o { obj with characters := p }) = .ok () (s.put o ⟨p, n⟩) := by
  rw [setLength_apply (object_put_self ho _), put_put]

/-- The array behind a freed one is given to the object that owned it. -/
theorem Represents.replaceArray (h : Represents s vals) (ho : s.object o = some obj)
    {vs : UTF16String} {c : List (Option (BitVec 16))} (hc : Contains c 0 vs) :
    Represents (((s.free obj.characters).withArray c).put o ⟨some s.memory.length, vs.length⟩)
      (vals.set o (some vs)) := by
  have hframe : Frame obj.characters s.memory (freed obj.characters s.memory ++ [⟨true, c⟩]) :=
    (Frame.refl _ _).freed.append (Nat.le_of_eq (length_freed _ _).symm) _
  have hholds : Holds (freed obj.characters s.memory ++ [⟨true, c⟩]) (some s.memory.length) vs := by
    rw [← length_freed obj.characters]
    exact holds_newest hc
  apply h.put ho hframe rfl hholds
  rintro q hlt ⟨⟩
  exact absurd hlt (Nat.lt_irrefl _)

/-- Appending another object concatenates, and so does appending an empty one. -/
theorem append_ok (h : Represents s vals) {this string : Nat} {a b : StringObject}
    {vs : UTF16String} (ha : s.object this = some a) (hb : s.object string = some b)
    (hus : vals.value this = some us) (hvs : vals.value string = some vs)
    (hself : this = string → a.length = 0) (hsum : a.length + b.length ≤ intMax) :
    ∃ t, append this string s = .ok () t ∧ Represents t (vals.set this (some (us ++ vs))) := by
  obtain ⟨hla, hha⟩ := h.holds this a us ha hus
  obtain ⟨hlb, hhb⟩ := h.holds string b vs hb hvs
  by_cases hzero : b.length = 0
  · obtain rfl : vs = [] := List.eq_nil_of_length_eq_zero (by omega)
    refine ⟨s, bind_ok (load_apply hb) (onlyIf_neg (not_not.mpr hzero) _ s), ?_⟩
    rw [List.append_nil, set_value hus]
    exact h
  have hne : string ≠ this := by
    rintro rfl
    rw [ha] at hb
    cases hb
    exact hzero (hself rfl)
  let fresh : List (Option (BitVec 16)) := List.replicate (a.length + b.length).toNat none
  have hfresh : fresh.length = us.length + vs.length := by
    rw [List.length_replicate]
    omega
  have hmove : us.length ≤ fresh.length := by omega
  obtain ⟨c₁, hcopy, hdelete, hlen₁, hfirst⟩ := moveUnits_ok ha hla hha hmove
  -- The source of the second loop is not the array that was freed.
  have hother : ∀ q, b.characters = some q → a.characters ≠ some q := by
    intro q hq hq'
    exact hne (h.owned string this b a q hb ha hq hq')
  have hsource : Holds (s.free a.characters).memory b.characters vs :=
    hhb.frame (Frame.refl _ _).freed hother
  have hbf : (s.free a.characters).object string = some b := hb
  obtain ⟨c₂, hfill, _, hcontents⟩ := copyUnits_ok hbf hlb hsource hfirst (by omega)
  have hoffset : us.length = a.length.toNat := by omega
  rw [hoffset, Store.free, length_freed] at hfill
  have hlength : a.length + b.length = ((us ++ vs).length : Int) := by
    rw [List.length_append, hla, hlb, Int.natCast_add]
  let t := (s.free a.characters).withArray c₂
  let moved : StringObject := { a with characters := some s.memory.length }
  have hat : t.object this = some a := ha
  have hput : (t.put this moved).object this = some moved := object_put_self hat moved
  have hbt : (t.put this moved).object string = some b := (object_put_of_ne hat moved hne).trans hb
  have hlast : setLength this (a.length + b.length) (t.put this moved) =
      .ok () (t.put this ⟨some s.memory.length, (us ++ vs).length⟩) := by
    rw [setLength_put hat, hlength]
  refine ⟨t.put this ⟨some s.memory.length, (us ++ vs).length⟩, ?_, h.replaceArray ha hcontents⟩
  refine bind_ok (load_apply hb) ((onlyIf_pos hzero _ s).trans ?_)
  refine bind_ok (load_apply ha) (bind_ok (load_apply hb) (bind_ok (addLengths_apply hsum s) ?_))
  refine bind_ok (newArray_withArray (by omega) s) (bind_ok (load_apply ha) ?_)
  refine bind_ok hcopy (bind_ok (load_apply ha) (bind_ok hdelete ?_))
  refine bind_ok (load_apply ha) (bind_ok (load_apply hb) (bind_ok hfill ?_))
  refine bind_ok (setCharacters_apply hat _) (bind_ok (load_apply hput) ?_)
  exact bind_ok (load_apply hbt) (bind_ok (addLengths_apply hsum _) hlast)

theorem appendUnit_ok (h : Represents s vals) (ho : s.object o = some obj)
    (hus : vals.value o = some us) (hsum : obj.length + 1 ≤ intMax) (nbr : CInt) :
    ∃ t, appendUnit o nbr s = .ok () t ∧
      Represents t (vals.set o (some (us.appendUnit nbr))) := by
  obtain ⟨hlen, hown⟩ := h.holds o obj us ho hus
  let fresh : List (Option (BitVec 16)) := List.replicate (obj.length + 1).toNat none
  have hfresh : fresh.length = us.length + 1 := by
    rw [List.length_replicate]
    omega
  have hroom : us.length ≤ fresh.length := by omega
  obtain ⟨c, hmove, hc, hcontains⟩ := moveIfAny_ok ho hlen hown hroom
  let t := (s.free obj.characters).withArray (c.set us.length (some (nbr.setWidth 16)))
  let moved : StringObject := { obj with characters := some s.memory.length }
  have hot : t.object o = some obj := ho
  have hput : (t.put o moved).object o = some moved := object_put_self hot moved
  have hlength : obj.length + 1 = ((us.appendUnit nbr).length : Int) := by
    rw [UTF16String.appendUnit, List.length_append, hlen]
    rfl
  have hwrite : onMemory (writeAt (some s.memory.length) obj.length.toNat (nbr.setWidth 16))
      ((s.free obj.characters).withArray c) = .ok () t := by
    have hindex : obj.length.toNat = us.length := by omega
    rw [hindex, ← length_freed obj.characters s.memory]
    exact writeAt_withArray (s.free obj.characters) (by omega) _
  have hlast : setLength o (obj.length + 1) (t.put o moved) =
      .ok () (t.put o ⟨some s.memory.length, (us.appendUnit nbr).length⟩) := by
    rw [setLength_put hot, hlength]
  have hcontents : Contains (c.set us.length (some (nbr.setWidth 16))) 0 (us.appendUnit nbr) :=
    hcontains.concat (by omega) (nbr.setWidth 16)
  refine ⟨t.put o ⟨some s.memory.length, (us.appendUnit nbr).length⟩, ?_,
    h.replaceArray ho hcontents⟩
  refine bind_ok (load_apply ho) (bind_ok (addLengths_apply hsum s) ?_)
  refine bind_ok (newArray_withArray (by omega) s) (bind_ok (load_apply ho) ?_)
  refine bind_ok hmove (bind_ok (load_apply ho) (bind_ok hwrite ?_))
  refine bind_ok (setCharacters_apply hot _) (bind_ok (load_apply hput) ?_)
  exact bind_ok (addLengths_apply hsum _) hlast

theorem destroy_ok (h : Represents s vals) (ho : s.object o = some obj) :
    ∃ t, destroy o s = .ok () t ∧ Represents t (vals.set o none) := by
  obtain ⟨us, hus, _, hown⟩ := h.exists_value ho
  by_cases hp : obj.characters ≠ none
  · let cleared : StringObject := { obj with characters := none }
    have hof : (s.free obj.characters).object o = some obj := ho
    have hclear : onlyIf (obj.characters ≠ none) (do
        onMemory (deleteArray (← load o).characters)
        setCharacters o none) s = .ok () ((s.free obj.characters).put o cleared) := by
      refine (onlyIf_pos hp _ _).trans (bind_ok (load_apply ho) ?_)
      exact bind_ok (deleteArray_free hown) (setCharacters_apply hof none)
    refine ⟨_, bind_ok (load_apply ho) (bind_ok hclear (modify_apply _ _)), ?_⟩
    have hremove := h.remove ho (Frame.refl _ _).freed
    simpa [Store.put, Store.free] using hremove
  · refine ⟨_, bind_ok (load_apply ho) (bind_ok (onlyIf_neg hp _ s) (modify_apply _ _)), ?_⟩
    exact h.remove ho (Frame.refl _ _)

/-- An empty object is assigned to itself. -/
theorem assign_self_ok (h : Represents s vals) (ho : s.object o = some obj)
    (hus : vals.value o = some us) (hempty : obj.length = 0) :
    ∃ t, assign o o s = .ok () t ∧ Represents t (vals.set o (some us)) := by
  obtain ⟨hlen, hown⟩ := h.holds o obj us ho hus
  have hnot : ¬ (obj.length ≠ 0 ∧ obj.characters ≠ none) := fun hc => hc.1 hempty
  have hput : (s.put o obj).object o = some obj := object_put_self ho obj
  refine ⟨s.put o obj, ?_, h.put ho (Frame.refl _ _) hlen hown fun _ _ hq => hq⟩
  refine bind_ok (load_apply ho) (bind_ok (onlyIf_neg (not_not.mpr hempty) _ s) ?_)
  refine bind_ok (load_apply ho) (bind_ok (setLength_apply ho obj.length) ?_)
  exact bind_ok (load_apply hput) (bind_ok (load_apply hput) (onlyIf_neg hnot _ _))

/-- The first part of an assignment leaves the object without units. -/
theorem clear_ok (ho : s.object o = some obj) (hlen : obj.length = us.length)
    (hown : Holds s.memory obj.characters us) :
    ∃ p memory, onlyIf (obj.length ≠ 0) (do
        onMemory (deleteArray (← load o).characters)
        setCharacters o none) s = .ok () ({ s with memory := memory }.put o ⟨p, obj.length⟩) ∧
      Frame obj.characters s.memory memory ∧ memory.length = s.memory.length ∧
      Holds memory p [] ∧ ∀ q, p = some q → obj.characters = some q := by
  by_cases hzero : obj.length ≠ 0
  · have hof : (s.free obj.characters).object o = some obj := ho
    refine ⟨none, freed obj.characters s.memory, (onlyIf_pos hzero _ _).trans ?_,
      (Frame.refl _ _).freed, length_freed _ _, rfl, nofun⟩
    exact bind_ok (load_apply ho) (bind_ok (deleteArray_free hown) (setCharacters_apply hof none))
  · obtain rfl : us = [] := List.eq_nil_of_length_eq_zero (by omega)
    have hself : s.put o obj = s := by
      have hentry : s.objects[o]? = some (some obj) := Option.join_eq_some_iff.mp ho
      obtain ⟨hlt, hget⟩ := List.getElem?_eq_some_iff.mp hentry
      rw [Store.put, ← hget, List.set_getElem_self]
    refine ⟨obj.characters, s.memory, (onlyIf_neg hzero _ s).trans ?_, Frame.refl _ _, rfl, hown,
      fun _ hq => hq⟩
    exact congrArg _ hself.symm

/-- Assigning another object copies. -/
theorem assign_ok (h : Represents s vals) {this string : Nat} {a b : StringObject}
    {vs : UTF16String} (ha : s.object this = some a) (hb : s.object string = some b)
    (hus : vals.value this = some us) (hvs : vals.value string = some vs)
    (hne : string ≠ this) :
    ∃ t, assign this string s = .ok () t ∧ Represents t (vals.set this (some vs)) := by
  obtain ⟨hla, hha⟩ := h.holds this a us ha hus
  obtain ⟨hlb, hhb⟩ := h.holds string b vs hb hvs
  obtain ⟨p, memory, hclear, hframe, hcount, hempty, hold⟩ := clear_ok ha hla hha
  let s₁ : Store := { s with memory := memory }
  have hat : s₁.object this = some a := ha
  have hthis : ∀ obj', (s₁.put this obj').object this = some obj' := object_put_self hat
  have hstring : ∀ obj', (s₁.put this obj').object string = some b :=
    fun obj' => (object_put_of_ne hat obj' hne).trans hb
  have hlength : setLength this b.length (s₁.put this ⟨p, a.length⟩) =
      .ok () (s₁.put this ⟨p, b.length⟩) := by
    rw [setLength_apply (hthis _), put_put]
  have hcopy : ∃ t, onlyIf (b.length ≠ 0 ∧ b.characters ≠ none) (do
        let array ← onMemory (newArray (← load string).length)
        setCharacters this (some array)
        fill (return (← load this).characters) 0 (characterAt string) (← load this).length.toNat)
          (s₁.put this ⟨p, b.length⟩) = .ok () t ∧ Represents t (vals.set this (some vs)) := by
    by_cases hzero : b.length ≠ 0
    · have hunits : vs ≠ [] := by
        rintro rfl
        exact hzero hlb
      let s₂ := s₁.put this ⟨some memory.length, b.length⟩
      have hsource : Holds s₂.memory b.characters vs := by
        refine hhb.frame hframe fun q hq hq' => ?_
        exact hne (h.owned string this b a q hb ha hq hq')
      obtain ⟨c, hnew, hcontains⟩ := newUnits_ok (hthis ⟨p, b.length⟩) hlb (put_put s₁ this _ _)
        (fun c i hi => characterAt_withArray (hstring _) hsource c hi)
      refine ⟨s₂.withArray c, (onlyIf_pos ⟨hzero, hhb.ne_none hunits⟩ _ _).trans ?_, ?_⟩
      · exact bind_ok (load_apply (hstring _)) hnew
      · have hholds : Holds (memory ++ [⟨true, c⟩]) (some memory.length) vs :=
          holds_newest hcontains
        refine h.put ha (hframe.append (Nat.le_of_eq hcount.symm) [⟨true, c⟩]) hlb hholds ?_
        rintro q hlt ⟨⟩
        exact absurd hlt (by omega)
    · obtain rfl : vs = [] := List.eq_nil_of_length_eq_zero (by omega)
      refine ⟨s₁.put this ⟨p, b.length⟩, onlyIf_neg (fun hc => hzero hc.1) _ _, ?_⟩
      exact h.put ha hframe hlb hempty fun q _ hq => hold q hq
  obtain ⟨t, hcopy, ht⟩ := hcopy
  refine ⟨t, ?_, ht⟩
  refine bind_ok (load_apply ha) (bind_ok hclear (bind_ok (load_apply (hstring _)) ?_))
  refine bind_ok hlength (bind_ok (load_apply (hstring _)) ?_)
  exact bind_ok (load_apply (hstring _)) hcopy

theorem default_ok (h : Represents s vals) :
    ∃ t, UTF16Storage.default s = .ok () t ∧ Represents t (vals ++ [some []]) :=
  ⟨s.push {}, rfl, h.concat (Frame.refl _ _) rfl rfl nofun⟩

theorem toInt_of_le {n : Nat} (h : n ≤ intMax) : toInt n = n := by
  have hn : n ≤ 2147483647 := Int.ofNat_le.mp h
  rw [toInt, BitVec.toInt_eq_toNat_cond, BitVec.toNat_ofNat, Nat.mod_eq_of_lt (by omega),
    if_pos (by omega)]

theorem ofString_ok (h : Represents s vals) {str : CppString} (hlen : str.length ≤ intMax) :
    ∃ t, ofString str s = .ok () t ∧ Represents t (vals ++ [some (.ofString str)]) := by
  have hlength : toInt str.length = (UTF16String.ofString str).length := by
    rw [toInt_of_le hlen, UTF16String.ofString, List.length_map]
  rw [ofString, hlength]
  apply construct_ok h
  intro t _ i hi
  have hi' : i < str.length := by
    rw [UTF16String.ofString, List.length_map] at hi
    exact hi
  simp [UTF16String.ofString, List.getD_eq_getElem?_getD, hi']

theorem ofUnits_ok (h : Represents s vals) {utf16String : List (BitVec 16)} {length : CInt}
    (hpos : 0 ≤ length.toInt) (hlen : length.toInt ≤ utf16String.length) :
    ∃ t, ofUnits utf16String length s = .ok () t ∧
      Represents t (vals ++ [some (utf16String.take length.toInt.toNat)]) := by
  have hlength : length.toInt = (utf16String.take length.toInt.toNat).length := by
    rw [List.length_take]
    omega
  have hsource : ∀ t, Extends s t → ∀ i, (hi : i < (utf16String.take length.toInt.toNat).length) →
      unitAt utf16String i t = .ok (utf16String.take length.toInt.toNat)[i] t := by
    intro t _ i hi
    have hi' : i < utf16String.length := by
      rw [List.length_take] at hi
      omega
    simp only [unitAt, List.getElem?_eq_getElem hi', List.getElem_take]
    rfl
  obtain ⟨t, ht, hrep⟩ := construct_ok h hsource
  rw [← hlength] at ht
  exact ⟨t, ht, hrep⟩

theorem copy_ok (h : Represents s vals) (ho : s.object o = some obj)
    (hus : vals.value o = some us) :
    ∃ t, copy o s = .ok () t ∧ Represents t (vals ++ [some us]) := by
  obtain ⟨hlen, hown⟩ := h.holds o obj us ho hus
  obtain ⟨t, ht, hrep⟩ := construct_ok h fun t ht i hi => ht.characterAt ho hown hi
  rw [← hlen] at ht
  exact ⟨t, bind_ok (load_apply ho) ht, hrep⟩

theorem lengthOf_eq (ho : s.object o = some obj) : s.lengthOf o = obj.length := by
  rw [Store.lengthOf, ho]
  rfl

end Methods

/-! ## Programs -/

section Programs

variable {s t : Store} {vals : Values} {e : Operation} {es : List Operation}

theorem append_run (h : Represents s vals) {this string : Nat}
    (hp : Proper s (.append this string)) (ht : (s.object this).isSome = true)
    (hs : (s.object string).isSome = true) :
    ∃ t vals', append this string s = .ok () t ∧
      stepValues vals (.append this string) = some vals' ∧ Represents t vals' := by
  obtain ⟨a, us, ha, hus, _⟩ := h.exists_object ht
  obtain ⟨b, vs, hb, hvs, _⟩ := h.exists_object hs
  have hself : this = string → a.length = 0 := fun he => (lengthOf_eq ha).symm.trans (hp.1 he)
  have hsum : a.length + b.length ≤ intMax := by
    rw [← lengthOf_eq ha, ← lengthOf_eq hb]
    exact hp.2
  obtain ⟨t, hrun, hrep⟩ := append_ok h ha hb hus hvs hself hsum
  exact ⟨t, _, hrun, by simp [stepValues, hus, hvs, UTF16String.append], hrep⟩

/-- Every operation on objects that exist returns, and computes on the arrays
what it computes on the sequences. -/
theorem run_ok (h : Represents s vals) (hp : Proper s e)
    (hoperands : ∀ o ∈ e.operands, (s.object o).isSome = true) :
    ∃ t vals', e.run s = .ok () t ∧ stepValues vals e = some vals' ∧ Represents t vals' := by
  cases e with
  | default =>
      obtain ⟨t, ht, hrep⟩ := default_ok h
      exact ⟨t, _, ht, rfl, hrep⟩
  | ofString str =>
      obtain ⟨t, ht, hrep⟩ := ofString_ok h hp
      exact ⟨t, _, ht, rfl, hrep⟩
  | ofUnits utf16String length =>
      obtain ⟨t, ht, hrep⟩ := ofUnits_ok h hp.1 hp.2
      exact ⟨t, _, ht, rfl, hrep⟩
  | copy str =>
      obtain ⟨b, us, hb, hus, _⟩ := h.exists_object (hoperands str (by simp [Operation.operands]))
      obtain ⟨t, ht, hrep⟩ := copy_ok h hb hus
      exact ⟨t, _, ht, by simp [stepValues, hus], hrep⟩
  | assign this string =>
      obtain ⟨a, us, ha, hus, _⟩ := h.exists_object (hoperands this (by simp [Operation.operands]))
      obtain ⟨b, vs, hb, hvs, _⟩ :=
        h.exists_object (hoperands string (by simp [Operation.operands]))
      have hrun : ∃ t, assign this string s = .ok () t ∧
          Represents t (vals.set this (some vs)) := by
        by_cases hsame : string = this
        · subst hsame
          have hempty : a.length = 0 := (lengthOf_eq ha).symm.trans (hp rfl)
          rw [hvs] at hus
          cases hus
          exact assign_self_ok h ha hvs hempty
        · exact assign_ok h ha hb hus hvs hsame
      obtain ⟨t, ht, hrep⟩ := hrun
      exact ⟨t, _, ht, by simp [stepValues, hus, hvs], hrep⟩
  | append this string | plusAssign this string =>
      exact append_run h hp (hoperands this (by simp [Operation.operands]))
        (hoperands string (by simp [Operation.operands]))
  | appendUnit this nbr =>
      obtain ⟨a, us, ha, hus, _⟩ := h.exists_object (hoperands this (by simp [Operation.operands]))
      have hsum : a.length + 1 ≤ intMax := by
        rw [← lengthOf_eq ha]
        exact hp
      obtain ⟨t, ht, hrep⟩ := appendUnit_ok h ha hus hsum nbr
      exact ⟨t, _, ht, by simp [stepValues, hus], hrep⟩
  | destroy this =>
      obtain ⟨a, us, ha, hus, _⟩ := h.exists_object (hoperands this (by simp [Operation.operands]))
      obtain ⟨t, ht, hrep⟩ := destroy_ok h ha
      exact ⟨t, _, ht, by simp [stepValues, hus], hrep⟩

theorem step_represents (h : Represents s vals) (hp : Proper s e) (hs : step s e = some t) :
    ∃ vals', stepValues vals e = some vals' ∧ Represents t vals' := by
  unfold step at hs
  split_ifs at hs with hvalid
  obtain ⟨u, vals', hrun, hvals, hrep⟩ := run_ok h hp hvalid.2
  rw [hrun] at hs
  cases hs
  exact ⟨vals', hvals, hrep⟩

theorem run_represents (run : GuardedRun step Proper s es t) (h : Represents s vals) :
    ∃ vals', es.foldlM stepValues vals = some vals' ∧ Represents t vals' := by
  induction run generalizing vals with
  | refl s => exact ⟨vals, rfl, h⟩
  | cons hg hs _ ih =>
      obtain ⟨vals', hvals, hrep⟩ := step_represents h hg hs
      obtain ⟨last, hlast, hrep'⟩ := ih hrep
      exact ⟨last, by rw [List.foldlM_cons, hvals]; exact hlast, hrep'⟩

theorem represents_empty : Represents {} [] :=
  ⟨rfl, rfl, fun _ => rfl, nofun, nofun⟩

/-- In every program of proper operations no access goes wrong, and each live
object holds, in an array of its own, the units that the same program computes
on sequences. -/
theorem strings_hold_sequences (run : GuardedRun step Proper {} es t) :
    t.fault = none ∧ ∃ vals, runValues es = some vals ∧ Represents t vals := by
  obtain ⟨vals, hvals, hrep⟩ := run_represents run represents_empty
  exact ⟨hrep.sound, vals, hvals, hrep⟩

end Programs

instance (s : Store) : ∀ e : Operation, Decidable (Proper s e)
  | .ofString _ | .appendUnit .. => inferInstanceAs (Decidable (_ ≤ _))
  | .ofUnits .. => inferInstanceAs (Decidable (_ ∧ _))
  | .assign .. => inferInstanceAs (Decidable (_ → _))
  | .append .. | .plusAssign .. => inferInstanceAs (Decidable ((_ → _) ∧ _))
  | .default | .copy _ | .destroy _ => .isTrue trivial

/-- A copy is appended to, and then assigned to the string it was made from. -/
theorem strings_hold_sequences_copied : ∃ t : Store,
    GuardedRun step Proper {} [.ofString [0x61], .copy 0, .append 1 0, .appendUnit 1 0x62,
      .assign 0 1, .destroy 1] t ∧
      (t.fault = none ∧ ∃ vals, runValues [.ofString [0x61], .copy 0, .append 1 0,
        .appendUnit 1 0x62, .assign 0 1, .destroy 1] = some vals ∧ Represents t vals) := by
  obtain ⟨t, hrun, _⟩ := exists_guardedRun step Proper {} [.ofString [0x61], .copy 0, .append 1 0,
    .appendUnit 1 0x62, .assign 0 1, .destroy 1] (fun _ => True) (by decide +kernel)
  exact ⟨t, hrun, strings_hold_sequences hrun⟩

/-- A length without an array holds no sequence. -/
theorem not_represents_of_null {s : Store} {vals : Values} {o : Nat} {n : Int}
    (ho : s.object o = some ⟨none, n⟩) (hn : n ≠ 0) : ¬ Represents s vals := by
  intro h
  obtain ⟨us, _, hlen, hown⟩ := h.exists_value ho
  have hnil : us = [] := hown
  rw [hnil] at hlen
  exact hn hlen

/-- Assigning "a" to itself frees its array and keeps the length, and appending
it to itself reads the array behind its release. -/
theorem self_operands_go_wrong :
    (∃ s : Store, GuardedRun step Unguarded {} [.ofString [0x61], .assign 0 0] s ∧
      s.object 0 = some ⟨none, 1⟩ ∧
      ¬ ∃ vals, runValues [.ofString [0x61], .assign 0 0] = some vals ∧ Represents s vals) ∧
    ∃ s : Store, GuardedRun step Unguarded {} [.ofString [0x61], .append 0 0] s ∧
      s.fault = some (.memory .useAfterFree) := by
  constructor
  · obtain ⟨s, hrun, hs⟩ := exists_guardedRun step Unguarded {} [.ofString [0x61], .assign 0 0]
      (fun s => s.object 0 = some ⟨none, 1⟩) (by decide +kernel)
    refine ⟨s, hrun, hs, ?_⟩
    rintro ⟨vals, _, hrep⟩
    exact not_represents_of_null hs (by decide) hrep
  · exact exists_guardedRun step Unguarded {} [.ofString [0x61], .append 0 0] _ (by decide +kernel)

end CarpetSrv.Utils.UTF16Storage
