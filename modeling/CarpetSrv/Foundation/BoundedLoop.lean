import CarpetSrv.Foundation.ExceptState

/-!
# While loops with a throwing body

A loop tests its condition, runs its body, and goes on while the body asks it
to. Fuel makes the recursion structural. `loop_unfold` recovers the equation
of the unbounded loop from a measure that every continuing round decreases,
so a caller that supplies enough fuel never sees it.

## Implementation notes

`Meets` quantifies over the states in which a body is really started. It is
the place where a condition on the individual rounds of one call is stated.
-/

namespace Foundation.BoundedLoop

open ExceptState

variable {ε σ : Type} (cond : σ → Prop) [DecidablePred cond] (body : EStateM ε σ Bool)

/-- Run the body while the condition holds and the body returns `true`. -/
def loop : Nat → EStateM ε σ Unit
  | 0 => pure ()
  | fuel + 1 => do
      if cond (← get) then
        if (← body) then
          loop fuel

/-- Every state in which a round of the loop starts satisfies `P`. -/
def Meets (P : σ → Prop) : Nat → σ → Prop
  | 0, _ => True
  | fuel + 1, s => cond s → P s ∧
      match body s with
      | .ok true s' => Meets P fuel s'
      | _ => True

instance decidableMeets (P : σ → Prop) [DecidablePred P] :
    (fuel : Nat) → (s : σ) → Decidable (Meets cond body P fuel s)
  | 0, _ => .isTrue trivial
  | fuel + 1, s =>
      have : Decidable (match body s with
          | .ok true s' => Meets cond body P fuel s'
          | _ => True) :=
        match body s with
        | .ok true s' => decidableMeets P fuel s'
        | .ok false _ => .isTrue trivial
        | .error _ _ => .isTrue trivial
      inferInstanceAs (Decidable (cond s → P s ∧ _))

theorem loop_succ (fuel : Nat) (s : σ) :
    loop cond body (fuel + 1) s =
      if cond s then
        match body s with
        | .ok true s' => loop cond body fuel s'
        | .ok false s' => .ok () s'
        | .error e s' => .error e s'
      else .ok () s := by
  rw [loop, bind_of_ok (get_apply s)]
  by_cases hc : cond s
  · simp only [if_pos hc]
    rw [bind_apply]
    cases h : body s with
    | ok b s' => cases b <;> rfl
    | error e s' => rfl
  · simp only [if_neg hc]
    rfl

theorem loop_of_not {s : σ} (h : ¬ cond s) (fuel : Nat) :
    loop cond body fuel s = .ok () s := by
  cases fuel with
  | zero => rfl
  | succ n => rw [loop_succ, if_neg h]

section Measure

variable (μ : σ → Nat)
  (hμ : ∀ s s', cond s → body s = .ok true s' → μ s' < μ s)
  (hpos : ∀ s, cond s → 0 < μ s)

include hμ hpos

/-- Fuel beyond the measure changes nothing. -/
theorem loop_fuel_irrelevant {n k : Nat} {s : σ} (hn : μ s ≤ n) (hk : μ s ≤ k) :
    loop cond body n s = loop cond body k s := by
  induction n generalizing k s with
  | zero =>
      have hc : ¬ cond s := fun h => by have := hpos s h; omega
      rw [loop_of_not cond body hc, loop_of_not cond body hc]
  | succ n ih =>
      by_cases hc : cond s
      · have hp := hpos s hc
        obtain ⟨k, rfl⟩ : ∃ j, k = j + 1 := ⟨k - 1, by omega⟩
        rw [loop_succ, loop_succ, if_pos hc, if_pos hc]
        cases h : body s with
        | ok b s' =>
            cases b with
            | false => rfl
            | true =>
                have hlt := hμ s s' hc h
                exact ih (by omega) (by omega)
        | error e s' => rfl
      · rw [loop_of_not cond body hc, loop_of_not cond body hc]

/-- With enough fuel the loop satisfies the equation of the unbounded loop. -/
theorem loop_unfold {n : Nat} {s : σ} (hn : μ s ≤ n) :
    loop cond body n s =
      if cond s then
        match body s with
        | .ok true s' => loop cond body n s'
        | .ok false s' => .ok () s'
        | .error e s' => .error e s'
      else .ok () s := by
  by_cases hc : cond s
  · have hp := hpos s hc
    obtain ⟨n, rfl⟩ : ∃ j, n = j + 1 := ⟨n - 1, by omega⟩
    rw [loop_succ, if_pos hc, if_pos hc]
    cases h : body s with
    | ok b s' =>
        cases b with
        | false => rfl
        | true =>
            have hlt := hμ s s' hc h
            exact loop_fuel_irrelevant cond body μ hμ hpos (by omega) (by omega)
    | error e s' => rfl
  · rw [loop_of_not cond body hc, if_neg hc]

end Measure

/-- A loop invariant that each round keeps, on both exits, when the round
starts in a state satisfying `P`. -/
theorem loop_invariant {I P : σ → Prop}
    (hbody : ∀ s, cond s → P s → I s → I (after body s)) (n : Nat) (s : σ)
    (hm : Meets cond body P n s) (hs : I s) : I (after (loop cond body n) s) := by
  induction n generalizing s with
  | zero => exact hs
  | succ n ih =>
      by_cases hc : cond s
      · obtain ⟨hp, hrest⟩ := hm hc
        have hb := hbody s hc hp hs
        have hl := loop_succ cond body n s
        rw [if_pos hc] at hl
        cases h : body s with
        | ok b s' =>
            rw [after_of_ok h] at hb
            cases b with
            | false =>
                rw [h] at hl
                rw [after_of_ok hl]
                exact hb
            | true =>
                rw [h] at hl hrest
                have hcont := ih s' hrest hb
                simpa only [after, hl] using hcont
        | error e s' =>
            rw [after_of_error h] at hb
            rw [h] at hl
            rw [after_of_error hl]
            exact hb
      · rw [after_of_ok (loop_of_not cond body hc (n + 1))]
        exact hs

omit [DecidablePred cond] in
/-- A round condition may be replaced by a weaker one. -/
theorem Meets.mono {P P' : σ → Prop} (h : ∀ s, P s → P' s) {n : Nat} {s : σ}
    (hm : Meets cond body P n s) : Meets cond body P' n s := by
  induction n generalizing s with
  | zero => trivial
  | succ n ih =>
      intro hc
      obtain ⟨hp, hrest⟩ := hm hc
      refine ⟨h s hp, ?_⟩
      split at hrest
      case h_1 s' hr => exact ih hrest
      case h_2 => trivial

omit [DecidablePred cond] in
/-- The trivial round condition is always met. -/
theorem meets_of_forall {P : σ → Prop} (h : ∀ s, P s) (n : Nat) (s : σ) :
    Meets cond body P n s := by
  induction n generalizing s with
  | zero => trivial
  | succ n ih =>
      intro _
      refine ⟨h s, ?_⟩
      split
      · exact ih _
      · trivial

end Foundation.BoundedLoop
