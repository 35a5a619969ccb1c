import Mathlib.Data.List.Basic

/-!
# Runs of a partial step function

A system is a partial step function on labelled events: `none` means that the
event cannot happen in that state. A run takes a list of events, each in a
state that meets a guard, so that a statement about all runs and a statement
about the runs with well-behaved steps are instances of one definition.
-/

namespace Foundation

variable {σ ε : Type*}

/-- A run from one state to another by the listed events. Each event is taken
in a state where the guard allows it. -/
inductive GuardedRun (step : σ → ε → Option σ) (guard : σ → ε → Prop) :
    σ → List ε → σ → Prop
  | refl (s : σ) : GuardedRun step guard s [] s
  | cons {s t u : σ} {e : ε} {es : List ε} (hg : guard s e) (hs : step s e = some t)
      (tail : GuardedRun step guard t es u) : GuardedRun step guard s (e :: es) u

/-- The guard that allows every event. -/
abbrev Unguarded : σ → ε → Prop := fun _ _ => True

namespace GuardedRun

variable {step : σ → ε → Option σ} {guard : σ → ε → Prop} {s t u : σ} {es : List ε}

/-- A property kept by every guarded step is kept by every guarded run. -/
theorem invariant {I : σ → Prop}
    (hstep : ∀ s e t, guard s e → step s e = some t → I s → I t)
    (run : GuardedRun step guard s es t) (hs : I s) : I t := by
  induction run with
  | refl s => exact hs
  | cons hg h _ ih => exact ih (hstep _ _ _ hg h hs)

/-- A property of the events so far and the state they lead to, kept by every
guarded step, holds behind every guarded run. -/
theorem invariant_history {I : List ε → σ → Prop}
    (hstep : ∀ es s e t, guard s e → step s e = some t → I es s → I (es ++ [e]) t)
    (run : GuardedRun step guard s es t) (hs : I [] s) : I es t := by
  have hfrom : ∀ past, I past s → I (past ++ es) t := by
    clear hs
    induction run with
    | refl s =>
        intro past hs
        rwa [List.append_nil]
    | @cons s m _ e es hg h _ ih =>
        intro past hs
        rw [List.append_cons]
        exact ih _ (hstep _ _ _ _ hg h hs)
  exact hfrom [] hs

/-- A property of the state and the number of events of one kind, kept by every
guarded step, holds behind every guarded run. -/
theorem invariant_count {I : Nat → σ → Prop} (kind : ε → Bool)
    (hstep : ∀ k s e t, guard s e → step s e = some t → I k s →
      I (if kind e = true then k + 1 else k) t)
    (run : GuardedRun step guard s es t) (hs : I 0 s) : I (es.countP kind) t := by
  refine run.invariant_history (I := fun past s => I (past.countP kind) s) ?_ hs
  intro past s e t hg h hpast
  have hnext := hstep _ s e t hg h hpast
  rw [List.countP_append, List.countP_singleton]
  split_ifs at hnext ⊢ <;> exact hnext

theorem append {fs : List ε} (h₁ : GuardedRun step guard s es t)
    (h₂ : GuardedRun step guard t fs u) : GuardedRun step guard s (es ++ fs) u := by
  induction h₁ with
  | refl s => exact h₂
  | cons hg h _ ih => exact .cons hg h (ih h₂)

/-- The events determine where a run ends. -/
theorem unique (h₁ : GuardedRun step guard s es t) (h₂ : GuardedRun step guard s es u) :
    t = u := by
  induction h₁ with
  | refl s =>
      cases h₂
      rfl
  | cons _ hs _ ih =>
      cases h₂ with
      | cons _ hs' tail =>
          rw [hs] at hs'
          cases hs'
          exact ih tail

/-- A run along two lists of events passes a state between them. -/
theorem split {fs : List ε} (run : GuardedRun step guard s (es ++ fs) t) :
    ∃ m, GuardedRun step guard s es m ∧ GuardedRun step guard m fs t := by
  induction es generalizing s with
  | nil => exact ⟨s, .refl s, run⟩
  | cons e es ih =>
      cases run with
      | cons hg hs tail =>
          obtain ⟨m, hleft, hright⟩ := ih tail
          exact ⟨m, .cons hg hs hleft, hright⟩

end GuardedRun

/-- Execute a list of events, stopping when the guard forbids one of them or
it cannot happen. -/
def runGuarded (step : σ → ε → Option σ) (guard : σ → ε → Prop) [∀ s e, Decidable (guard s e)]
    (s : σ) : List ε → Option σ
  | [] => some s
  | e :: es => if guard s e then (step s e).bind fun t => runGuarded step guard t es else none

/-- Executing the events is the guarded run. -/
theorem runGuarded_eq_some_iff {step : σ → ε → Option σ} {guard : σ → ε → Prop}
    [∀ s e, Decidable (guard s e)] {s t : σ} {es : List ε} :
    runGuarded step guard s es = some t ↔ GuardedRun step guard s es t := by
  induction es generalizing s with
  | nil =>
      constructor
      · intro h
        cases h
        exact .refl _
      · intro h
        cases h
        rfl
  | cons e es ih =>
      simp only [runGuarded, Option.ite_none_right_eq_some, Option.bind_eq_some_iff]
      constructor
      · rintro ⟨hg, m, hm, ht⟩
        exact .cons hg hm (ih.mp ht)
      · intro h
        cases h with
        | cons hg hs tail => exact ⟨hg, _, hs, ih.mpr tail⟩

/-- A run that can be executed ends in a state with whatever the execution shows. -/
theorem exists_guardedRun (step : σ → ε → Option σ) (guard : σ → ε → Prop)
    [∀ s e, Decidable (guard s e)] (s : σ) (es : List ε) (P : σ → Prop)
    (h : ∃ t ∈ runGuarded step guard s es, P t) : ∃ t, GuardedRun step guard s es t ∧ P t := by
  obtain ⟨t, ht, hp⟩ := h
  exact ⟨t, runGuarded_eq_some_iff.mp ht, hp⟩

/-- A run that can be executed passes a state and ends in one with whatever the
execution shows of the two. -/
theorem exists_guardedRun_append (step : σ → ε → Option σ) (guard : σ → ε → Prop)
    [∀ s e, Decidable (guard s e)] (s : σ) (es fs : List ε) (P Q : σ → Prop)
    (h : ∃ m ∈ runGuarded step guard s es, P m ∧ ∃ t ∈ runGuarded step guard m fs, Q t) :
    ∃ m t, GuardedRun step guard s es m ∧ GuardedRun step guard m fs t ∧ P m ∧ Q t := by
  obtain ⟨m, hm, hp, t, ht, hq⟩ := h
  exact ⟨m, t, runGuarded_eq_some_iff.mp hm, runGuarded_eq_some_iff.mp ht, hp, hq⟩

end Foundation
