import CarpetSrv.Foundation.ReadCursor
import Mathlib.Data.Set.Function
import Mathlib.InformationTheory.Coding.UniquelyDecodable

/-!
# Codes whose words show where they end

A code is self-delimiting on a set of values if a stream that begins with the
word of such a value determines the value and what stands behind its word. No
word is then a prefix of another one, and a sequence of words is uniquely
decodable. The rules build such codes: a reader that recovers every value from
its word, words of one length, and a length in front of the elements of a list.
-/

namespace Foundation

open InformationTheory

variable {ε α β : Type}

/-- Equal streams that begin with words of two values have equal values and equal rests. -/
def SelfDelimiting (s : Set α) (code : α → List β) : Prop :=
  ∀ a ∈ s, ∀ b ∈ s, ∀ r r', code a ++ r = code b ++ r' → a = b ∧ r = r'

variable {s : Set α} {code : α → List β}

/-- What a reader returns on a stream is determined by the stream. -/
theorem SelfDelimiting.of_reads {m : Reader ε β α} (h : ∀ a ∈ s, Reads m (code a) a) :
    SelfDelimiting s code := by
  intro a ha b hb r r' heq
  have hleft := h a ha { data := code a ++ r } r rfl
  have hright := h b hb { data := code a ++ r } r' heq
  cases hleft.symm.trans hright
  exact ⟨rfl, List.append_cancel_left heq⟩

theorem SelfDelimiting.of_length {k : Nat} (hinj : Set.InjOn code s)
    (hlen : ∀ a ∈ s, (code a).length = k) : SelfDelimiting s code := by
  intro a ha b hb r r' heq
  obtain ⟨hword, hrest⟩ := List.append_inj heq ((hlen a ha).trans (hlen b hb).symm)
  exact ⟨hinj ha hb hword, hrest⟩

/-- Lists of equal length are determined by the words of their elements. -/
theorem SelfDelimiting.flatMap_inj (h : SelfDelimiting s code) {as bs : List α}
    (ha : ∀ a ∈ as, a ∈ s) (hb : ∀ b ∈ bs, b ∈ s) (hlen : as.length = bs.length) {r r' : List β}
    (heq : as.flatMap code ++ r = bs.flatMap code ++ r') : as = bs ∧ r = r' := by
  induction as generalizing bs with
  | nil =>
      obtain rfl := List.length_eq_zero_iff.mp hlen.symm
      exact ⟨rfl, heq⟩
  | cons a as ih =>
      cases bs with
      | nil => cases hlen
      | cons b bs =>
          rw [List.flatMap_cons, List.flatMap_cons, List.append_assoc, List.append_assoc] at heq
          obtain ⟨rfl, hrest⟩ := h a (ha a List.mem_cons_self) b (hb b List.mem_cons_self) _ _ heq
          obtain ⟨rfl, hr⟩ := ih (fun x hx => ha x (List.mem_cons_of_mem _ hx))
            (fun x hx => hb x (List.mem_cons_of_mem _ hx)) (Nat.succ.inj hlen) hrest
          exact ⟨rfl, hr⟩

/-- A list behind its length. -/
theorem SelfDelimiting.lengthPrefixed {t : Set Nat} {lengthCode : Nat → List β}
    (hl : SelfDelimiting t lengthCode) (h : SelfDelimiting s code) :
    SelfDelimiting {as : List α | as.length ∈ t ∧ ∀ a ∈ as, a ∈ s}
      (fun as => lengthCode as.length ++ as.flatMap code) := by
  rintro as ⟨hta, ha⟩ bs ⟨htb, hb⟩ r r' heq
  simp only [List.append_assoc] at heq
  obtain ⟨hlen, hrest⟩ := hl _ hta _ htb _ _ heq
  exact h.flatMap_inj ha hb hlen hrest

theorem SelfDelimiting.injOn (h : SelfDelimiting s code) : Set.InjOn code s := by
  intro a ha b hb heq
  exact (h a ha b hb [] [] (by rw [heq])).1

/-- No word is a proper prefix of another one. -/
theorem SelfDelimiting.eq_of_isPrefix (h : SelfDelimiting s code) {a b : α} (ha : a ∈ s)
    (hb : b ∈ s) (hpre : code a <+: code b) : a = b := by
  obtain ⟨r, hr⟩ := hpre
  exact (h a ha b hb r [] (by rw [hr, List.append_nil])).1

theorem SelfDelimiting.uniquelyDecodable (h : SelfDelimiting s code)
    (hne : ∀ a ∈ s, code a ≠ []) : UniquelyDecodable (code '' s) := by
  intro ws vs hws hvs heq
  induction ws generalizing vs with
  | nil =>
      cases vs with
      | nil => rfl
      | cons v vs =>
          obtain ⟨a, ha, rfl⟩ := hvs v List.mem_cons_self
          exact absurd (List.append_eq_nil_iff.mp heq.symm).1 (hne a ha)
  | cons w ws ih =>
      obtain ⟨a, ha, rfl⟩ := hws w List.mem_cons_self
      cases vs with
      | nil => exact absurd (List.append_eq_nil_iff.mp heq).1 (hne a ha)
      | cons v vs =>
          obtain ⟨b, hb, rfl⟩ := hvs v List.mem_cons_self
          obtain ⟨rfl, hrest⟩ := h a ha b hb _ _ heq
          rw [ih vs (fun w hw => hws w (List.mem_cons_of_mem _ hw))
            (fun v hv => hvs v (List.mem_cons_of_mem _ hv)) hrest]

/-- Sequences of values are determined by the words written one behind the other. -/
theorem SelfDelimiting.eq_of_flatMap (h : SelfDelimiting s code) (hne : ∀ a ∈ s, code a ≠ [])
    {as bs : List α} (ha : ∀ a ∈ as, a ∈ s) (hb : ∀ b ∈ bs, b ∈ s)
    (heq : as.flatMap code = bs.flatMap code) : as = bs := by
  have hwords : as.map code = bs.map code := by
    apply h.uniquelyDecodable hne _ _ _ _ heq
    · intro w hw
      obtain ⟨a, hmem, rfl⟩ := List.mem_map.mp hw
      exact ⟨a, ha a hmem, rfl⟩
    · intro w hw
      obtain ⟨b, hmem, rfl⟩ := List.mem_map.mp hw
      exact ⟨b, hb b hmem, rfl⟩
  have hlen : as.length = bs.length := by simpa using congrArg List.length hwords
  have hend : as.flatMap code ++ [] = bs.flatMap code ++ [] := by rw [heq]
  exact (h.flatMap_inj ha hb hlen hend).1

end Foundation
