import CarpetSrv.Utils.UTF16Values
import Mathlib.Data.List.GetD

/-!
# Texts in and out of UTF-16 strings

`toString` gives back the text of an object, byte by byte. Both ways of making
an object from a text are undone by it, although they widen the bytes from 0x80
on differently, and so is `operator+` of two objects, which may be the same
one: it appends to a copy.

## Implementation notes

`createUTF16String` and `operator+` return their local object, which is here
the new object itself.
-/

namespace CarpetSrv.Utils.UTF16Storage

open Foundation Foundation.ExceptState Foundation.ArrayMemory

/-- The loop of `toString`, up to the first `n` characters. -/
def charactersBelow (this : Nat) : Nat → StoreM CppString
  | 0 => return []
  | n + 1 => do
      let result ← charactersBelow this n
      return result ++ [(← characterAt this n).setWidth 8]

def toString (this : Nat) : StoreM CppString := do
  charactersBelow this (← load this).length.toNat

/-- `ConsoleUtils::createUTF16String` -/
def createUTF16String (msg : CppString) : StoreM Unit := do
  let us := (← get).objects.length
  default
  forRange msg.length fun i => appendUnit us (((msg.getD i 0).signExtend 16).setWidth 32)

/-- `operator+` -/
def plus (this string : Nat) : StoreM Unit := do
  let new_string := (← get).objects.length
  copy this
  plusAssign new_string string

/-- The text that `toString` returns, if nothing goes wrong. -/
def text (s : Store) (o : Nat) : Option CppString :=
  match toString o s with
  | .ok result _ => some result
  | .error _ _ => none

section Text

variable {s t : Store} {vals : Values} {o : Nat} {us : UTF16String} {msg : CppString}

/-- The low bytes of the units. -/
def narrowed (us : UTF16String) : CppString := us.map (BitVec.setWidth 8)

theorem charactersBelow_ok {obj : StringObject} (ho : s.object o = some obj)
    (h : Holds s.memory obj.characters us) {n : Nat} (hn : n ≤ us.length) :
    charactersBelow o n s = .ok (narrowed (us.take n)) s := by
  induction n with
  | zero => rfl
  | succ n ih =>
      have hlt : n < us.length := hn
      have htake : narrowed (us.take (n + 1)) =
          narrowed (us.take n) ++ [us[n].setWidth 8] := by
        rw [narrowed, List.take_succ_eq_append_getElem hlt, List.map_append]
        rfl
      rw [htake, charactersBelow, bind_of_ok (ih (Nat.le_of_lt hlt)),
        bind_of_ok (characterAt_apply ho h hlt)]
      rfl

theorem Represents.text (h : Represents s vals) (o : Nat) :
    text s o = (vals.value o).map narrowed := by
  have halive := h.alive o
  rw [UTF16Storage.text, toString]
  cases ho : s.object o with
  | none =>
      rw [ho] at halive
      have hnone : vals.value o = none := Option.isNone_iff_eq_none.mp (by simpa using halive.symm)
      rw [hnone]
      simp [load, bind_apply, get_apply, ho]
  | some obj =>
      obtain ⟨us, hus, hlen, hown⟩ := h.exists_value ho
      have hcount : obj.length.toNat = us.length := by omega
      rw [bind_of_ok (load_apply ho), hcount, charactersBelow_ok ho hown (Nat.le_refl _),
        List.take_length, hus]
      rfl

/-- Both ways of widening a byte keep its low byte. -/
theorem narrowed_ofString (msg : CppString) : narrowed (.ofString msg) = msg := by
  have hback : ∀ c : Byte, (c.setWidth 16).setWidth 8 = c := fun c => by
    rw [BitVec.setWidth_setWidth (by omega), BitVec.setWidth_eq]
  rw [narrowed, UTF16String.ofString, List.map_map]
  exact (List.map_congr_left fun c _ => hback c).trans (List.map_id msg)

theorem narrowed_appendUnit (us : UTF16String) (c : Byte) :
    narrowed (us.appendUnit ((c.signExtend 16).setWidth 32)) = narrowed us ++ [c] := by
  have hlow : (c.signExtend 16).setWidth 8 = c := by
    ext i hi
    rw [BitVec.getElem_setWidth]
    simp [BitVec.getLsbD_signExtend, hi]
    omega
  have hcut : ((c.signExtend 16).setWidth 32).setWidth 16 = c.signExtend 16 := by
    rw [BitVec.setWidth_setWidth (by omega), BitVec.setWidth_eq]
  rw [narrowed, UTF16String.appendUnit, List.map_append, List.map_singleton, hcut, hlow]
  rfl

theorem narrowed_createUTF16String (msg : CppString) :
    narrowed (Utils.createUTF16String msg) = msg := by
  have happend : ∀ us : UTF16String,
      narrowed (msg.foldl (fun us c => us.appendUnit ((c.signExtend 16).setWidth 32)) us) =
        narrowed us ++ msg := by
    induction msg with
    | nil => exact fun us => (List.append_nil _).symm
    | cons c cs ih =>
        intro us
        rw [List.foldl_cons, ih, narrowed_appendUnit, List.append_assoc]
        rfl
  exact happend []

/-! ## Objects made from a text -/

theorem value_concat_self (vals : Values) (us : UTF16String) :
    Values.value (vals ++ [some us]) vals.length = some us :=
  (entry_concat vals (some us) _).trans (if_pos rfl)

/-- An object that is appended to character by character. -/
theorem createUTF16String_ok (h : Represents s vals) (hlen : msg.length ≤ intMax) :
    ∃ t, createUTF16String msg s = .ok () t ∧
      Represents t (vals ++ [some (Utils.createUTF16String msg)]) := by
  obtain ⟨s₀, hdefault, h₀⟩ := default_ok h
  have hrounds : ∃ t, forRange msg.length
      (fun i => appendUnit s.objects.length (((msg.getD i 0).signExtend 16).setWidth 32)) s₀ =
          .ok () t ∧
        Represents t (vals ++ [some (Utils.createUTF16String (msg.take msg.length))]) := by
    apply forRange_ok (I := fun i t =>
      Represents t (vals ++ [some (Utils.createUTF16String (msg.take i))]))
    · intro i hi t ht
      have hvalue := value_concat_self vals (Utils.createUTF16String (msg.take i))
      have hsome : (t.object vals.length).isSome = true := by
        rw [ht.alive, hvalue]
        rfl
      obtain ⟨obj, hobj⟩ := Option.isSome_iff_exists.mp hsome
      have hcount : obj.length + 1 ≤ intMax := by
        have hlow := congrArg List.length (narrowed_createUTF16String (msg.take i))
        rw [narrowed, List.length_map, List.length_take] at hlow
        have hobjlen := (ht.holds _ _ _ hobj hvalue).1
        omega
      obtain ⟨u, hu, hrep⟩ := appendUnit_ok ht hobj hvalue hcount
        (((msg.getD i 0).signExtend 16).setWidth 32)
      refine ⟨u, by rw [h.count]; exact hu, ?_⟩
      rw [List.set_append_right _ _ (Nat.le_refl _), Nat.sub_self] at hrep
      have hnext : Utils.createUTF16String (msg.take (i + 1)) =
          (Utils.createUTF16String (msg.take i)).appendUnit
            (((msg.getD i 0).signExtend 16).setWidth 32) := by
        rw [Utils.createUTF16String, List.take_succ_eq_append_getElem hi, List.foldl_append,
          List.getD_eq_getElem _ _ hi]
        rfl
      rw [hnext]
      exact hrep
    · exact h₀
  obtain ⟨t, hloop, ht⟩ := hrounds
  rw [List.take_length] at ht
  exact ⟨t, bind_ok (get_apply s) (bind_ok hdefault hloop), ht⟩

/-- The other objects keep their texts when a new one is made. -/
theorem Represents.text_concat (h : Represents s vals) (ht : Represents t (vals ++ [some us]))
    (o : Nat) (ho : (s.object o).isSome = true) :
    UTF16Storage.text t o = UTF16Storage.text s o := by
  have hlt : o < vals.length := by
    obtain ⟨obj, hobj⟩ := Option.isSome_iff_exists.mp ho
    exact h.lt_length_values hobj
  rw [ht.text, h.text, Values.value, entry_concat, if_neg (Nat.ne_of_lt hlt)]
  rfl

/-- `operator+` appends to a copy, so that its operands may be the same object. -/
theorem plus_ok (h : Represents s vals) {this string : Nat} {us vs : UTF16String}
    (hus : vals.value this = some us) (hvs : vals.value string = some vs)
    (hsum : (us.length + vs.length : Int) ≤ intMax) :
    ∃ t, plus this string s = .ok () t ∧ Represents t (vals ++ [some (us ++ vs)]) := by
  have hsome : ∀ {o ws}, vals.value o = some ws → ∃ obj, s.object o = some obj := by
    intro o ws hws
    apply Option.isSome_iff_exists.mp
    rw [h.alive, hws]
    rfl
  obtain ⟨a, ha⟩ := hsome hus
  obtain ⟨b, hb⟩ := hsome hvs
  obtain ⟨s₁, hcopy, h₁⟩ := copy_ok h ha hus
  have hlt : string < vals.length := h.lt_length_values hb
  have hnew : Values.value (vals ++ [some us]) vals.length = some us := value_concat_self vals us
  have hold : Values.value (vals ++ [some us]) string = some vs := by
    rw [Values.value, entry_concat, if_neg (Nat.ne_of_lt hlt)]
    exact hvs
  have hexists : ∀ {o ws}, Values.value (vals ++ [some us]) o = some ws →
      ∃ obj, s₁.object o = some obj := by
    intro o ws hws
    apply Option.isSome_iff_exists.mp
    rw [h₁.alive, hws]
    rfl
  obtain ⟨a₁, ha₁⟩ := hexists hnew
  obtain ⟨b₁, hb₁⟩ := hexists hold
  have hself : vals.length = string → a₁.length = 0 := fun he => absurd he (Nat.ne_of_gt hlt)
  have hlengths : a₁.length + b₁.length ≤ intMax := by
    rw [(h₁.holds _ _ _ ha₁ hnew).1, (h₁.holds _ _ _ hb₁ hold).1]
    exact hsum
  obtain ⟨t, happend, ht⟩ := append_ok h₁ ha₁ hb₁ hnew hold hself hlengths
  refine ⟨t, bind_ok (get_apply s) (bind_ok hcopy ?_), ?_⟩
  · rw [h.count]
    exact happend
  · rwa [List.set_append_right _ _ (Nat.le_refl _), Nat.sub_self] at ht

end Text

/-- In every store that a proper program reaches, an object made from a text in
either way gives the text back, and all other objects keep theirs. -/
theorem text_round_trip {es : List Operation} {s : Store} {msg : CppString}
    {make : StoreM Unit} (run : GuardedRun step Proper {} es s) (hlen : msg.length ≤ intMax)
    (hmake : make = createUTF16String msg ∨ make = ofString msg) :
    ∃ t, make s = .ok () t ∧ text t s.objects.length = some msg ∧
      ∀ o, (s.object o).isSome = true → text t o = text s o := by
  obtain ⟨vals, _, h⟩ := run_represents run represents_empty
  have hmade : ∃ us t, make s = .ok () t ∧ Represents t (vals ++ [some us]) ∧
      narrowed us = msg := by
    rcases hmake with rfl | rfl
    · obtain ⟨t, hrun, ht⟩ := createUTF16String_ok h hlen
      exact ⟨_, t, hrun, ht, narrowed_createUTF16String msg⟩
    · obtain ⟨t, hrun, ht⟩ := ofString_ok h hlen
      exact ⟨_, t, hrun, ht, narrowed_ofString msg⟩
  obtain ⟨us, t, hrun, ht, hlow⟩ := hmade
  refine ⟨t, hrun, ?_, fun o ho => h.text_concat ht o ho⟩
  rw [ht.text, h.count, value_concat_self, Option.map_some, hlow]

/-- The text "é" of two bytes, next to a string that was appended to. -/
theorem text_round_trip_accent : ∃ s t : Store,
    GuardedRun step Proper {} [.ofString [0x61], .appendUnit 0 0x62] s ∧
      createUTF16String [0xC3, 0xA9] s = .ok () t ∧ text t 1 = some [0xC3, 0xA9] ∧
      text t 0 = some [0x61, 0x62] := by
  obtain ⟨s, run, hcount, htext, hsome⟩ := exists_guardedRun step Proper {}
    [.ofString [0x61], .appendUnit 0 0x62]
    (fun s => s.objects.length = 1 ∧ text s 0 = some [0x61, 0x62] ∧
      (s.object 0).isSome = true) (by decide +kernel)
  have hlen : ([0xC3, 0xA9] : CppString).length ≤ intMax := by decide
  obtain ⟨t, hmade, hback, hother⟩ := text_round_trip run hlen (.inl rfl)
  rw [hcount] at hback
  exact ⟨s, t, run, hmade, hback, (hother 0 hsome).trans htext⟩

/-- In every store that a proper program reaches, the text of a sum is the
texts of its operands behind each other, also where `+=` on the operands would
go wrong. -/
theorem plus_text {es : List Operation} {s : Store} {this string : Nat} {a b : CppString}
    (run : GuardedRun step Proper {} es s) (ha : text s this = some a)
    (hb : text s string = some b) (hsum : (a.length + b.length : Int) ≤ intMax) :
    ∃ t, plus this string s = .ok () t ∧ text t s.objects.length = some (a ++ b) ∧
      ∀ o, (s.object o).isSome = true → text t o = text s o := by
  obtain ⟨vals, _, h⟩ := run_represents run represents_empty
  rw [h.text] at ha hb
  obtain ⟨us, hus, rfl⟩ := Option.map_eq_some_iff.mp ha
  obtain ⟨vs, hvs, rfl⟩ := Option.map_eq_some_iff.mp hb
  have hlengths : (us.length + vs.length : Int) ≤ intMax := by
    simpa [narrowed] using hsum
  obtain ⟨t, hrun, ht⟩ := plus_ok h hus hvs hlengths
  refine ⟨t, hrun, ?_, fun o ho => h.text_concat ht o ho⟩
  rw [ht.text, h.count, value_concat_self, Option.map_some, narrowed, List.map_append]
  rfl

/-- A string is added to itself, which `+=` does not survive. -/
theorem plus_text_self : ∃ s t : Store,
    GuardedRun step Proper {} [.ofString [0x61, 0x62]] s ∧
      plus 0 0 s = .ok () t ∧ text t 1 = some [0x61, 0x62, 0x61, 0x62] ∧
      text t 0 = some [0x61, 0x62] := by
  obtain ⟨s, run, hcount, htext, hsome⟩ := exists_guardedRun step Proper {}
    [.ofString [0x61, 0x62]]
    (fun s => s.objects.length = 1 ∧ text s 0 = some [0x61, 0x62] ∧
      (s.object 0).isSome = true) (by decide +kernel)
  obtain ⟨t, hrun, hback, hother⟩ := plus_text run htext htext (by decide)
  rw [hcount] at hback
  exact ⟨s, t, run, hrun, hback, (hother 0 hsome).trans htext⟩

end CarpetSrv.Utils.UTF16Storage
