import CarpetSrv.Foundation.GuardedRun
import Mathlib.Data.Finset.Max
import Mathlib.Order.WellFounded

/-!
# Lock order

Threads take and release exclusive locks. A thread that takes every lock above
those it holds, and releases the last one first, is ordered. Among ordered
threads there is always one that can go on, so that every way of scheduling
them ends with all threads finished. The locks that a program with scoped
guards takes are ordered when its guards nest upwards.

## Implementation notes

A lock that is held blocks every thread, also the one that holds it. The rank of
a lock is a natural number, and locks of one rank never nest.
-/

namespace Foundation

variable {L : Type}

inductive LockOp (L : Type)
  | lock (l : L)
  | unlock (l : L)
  deriving DecidableEq

/-- A thread: the locks that it holds, the last one first, and what it has left to do. -/
structure LockThread (L : Type) where
  held : List L := []
  todo : List (LockOp L)
  deriving DecidableEq

/-- From these held locks, the operations take every lock above those held, and
release all of them, the last one first. -/
def Ordered (rank : L → Nat) : List L → List (LockOp L) → Prop
  | held, [] => held = []
  | held, .lock l :: ops => (∀ h ∈ held, rank h < rank l) ∧ Ordered rank (l :: held) ops
  | held, .unlock l :: ops => ∃ rest, held = l :: rest ∧ Ordered rank rest ops

/-! ## Threads that share locks -/

namespace LockThread

/-- Every thread is ordered in what it has left to do. -/
def AllOrdered (rank : L → Nat) (ts : List (LockThread L)) : Prop :=
  ∀ t ∈ ts, Ordered rank t.held t.todo

/-- How many operations are left. -/
def remaining (ts : List (LockThread L)) : Nat := (ts.flatMap LockThread.todo).length

def Finished (ts : List (LockThread L)) : Prop := ∀ t ∈ ts, t.held = [] ∧ t.todo = []

section Update

variable {rank : L → Nat} {ts : List (LockThread L)} {i : Nat}

theorem AllOrdered.set (h : AllOrdered rank ts) {t : LockThread L}
    (ht : Ordered rank t.held t.todo) : AllOrdered rank (ts.set i t) := by
  intro u hu
  rcases List.mem_or_eq_of_mem_set hu with hold | rfl
  · exact h u hold
  · exact ht

theorem remaining_set {t u : LockThread L} (ht : ts[i]? = some t)
    (hu : u.todo.length + 1 = t.todo.length) : remaining (ts.set i u) + 1 = remaining ts := by
  induction ts generalizing i with
  | nil => cases ht
  | cons first ts ih =>
      cases i with
      | zero =>
          cases ht
          simp only [remaining, List.set_cons_zero, List.flatMap_cons, List.length_append]
          omega
      | succ i =>
          have hrest := ih ht
          simp only [remaining, List.set_cons_succ, List.flatMap_cons, List.length_append]
            at hrest ⊢
          omega

theorem getElem?_set_cases {j : Nat} {t u : LockThread L} (h : (ts.set i t)[j]? = some u) :
    (j = i ∧ u = t) ∨ ts[j]? = some u := by
  by_cases hij : i = j
  · subst hij
    have hlt : i < (ts.set i t).length := (List.getElem?_eq_some_iff.mp h).1
    rw [List.getElem?_set_self (by simpa using hlt)] at h
    exact .inl ⟨rfl, (Option.some.inj h).symm⟩
  · exact .inr ((List.getElem?_set_ne hij).symm.trans h)

/-- A lock is held by one thread at most. -/
def Exclusive (ts : List (LockThread L)) : Prop :=
  ∀ (i j : Nat) (t u : LockThread L) (l : L), ts[i]? = some t → ts[j]? = some u →
    l ∈ t.held → l ∈ u.held → i = j

/-- What a thread has left to do makes no difference. -/
theorem Exclusive.set (h : Exclusive ts) {t u : LockThread L} (ht : ts[i]? = some t)
    (hheld : u.held = t.held) : Exclusive (ts.set i u) := by
  have hold : ∀ {j : Nat} {v : LockThread L} {l : L}, (ts.set i u)[j]? = some v → l ∈ v.held →
      ∃ w, ts[j]? = some w ∧ l ∈ w.held := by
    intro j v l hv hl
    rcases getElem?_set_cases hv with ⟨rfl, rfl⟩ | hsame
    · exact ⟨t, ht, hheld ▸ hl⟩
    · exact ⟨v, hsame, hl⟩
  intro j k v w l hv hw hl hl'
  obtain ⟨v₀, hv₀, hl₀⟩ := hold hv hl
  obtain ⟨w₀, hw₀, hl₀'⟩ := hold hw hl'
  exact h j k v₀ w₀ l hv₀ hw₀ hl₀ hl₀'

/-- An ordered thread that holds a lock has something left to do. -/
theorem todo_ne_nil {t : LockThread L} (h : Ordered rank t.held t.todo) (ht : t.held ≠ []) :
    t.todo ≠ [] := by
  intro hnil
  rw [hnil] at h
  exact ht h

/-- The rank of the lock that the thread takes next. -/
def wanted (rank : L → Nat) (t : LockThread L) : Nat :=
  match t.todo with
  | .lock l :: _ => rank l
  | _ => 0

theorem exists_wanted_le (rank : L → Nat) (ts : List (LockThread L)) :
    ∃ bound, ∀ t ∈ ts, wanted rank t ≤ bound := by
  induction ts with
  | nil => exact ⟨0, nofun⟩
  | cons t ts ih =>
      obtain ⟨bound, hb⟩ := ih
      refine ⟨max (wanted rank t) bound, ?_⟩
      intro u hu
      rcases List.mem_cons.mp hu with rfl | hmem
      · exact Nat.le_max_left _ _
      · exact (hb u hmem).trans (Nat.le_max_right _ _)

end Update

variable [DecidableEq L]

/-- Thread `i` takes its next operation. A lock has to be free. -/
def step (ts : List (LockThread L)) (i : Nat) : Option (List (LockThread L)) :=
  match ts[i]? with
  | some ⟨held, .lock l :: ops⟩ =>
      if ∀ t ∈ ts, l ∉ t.held then some (ts.set i ⟨l :: held, ops⟩) else none
  | some ⟨held, .unlock l :: ops⟩ => some (ts.set i ⟨held.erase l, ops⟩)
  | _ => none

/-- Every way in which a thread can go on. -/
inductive Steps (ts : List (LockThread L)) (i : Nat) : List (LockThread L) → Prop
  | lock {held : List L} {l : L} {ops : List (LockOp L)} (ht : ts[i]? = some ⟨held, .lock l :: ops⟩)
      (hfree : ∀ t ∈ ts, l ∉ t.held) : Steps ts i (ts.set i ⟨l :: held, ops⟩)
  | unlock {held : List L} {l : L} {ops : List (LockOp L)}
      (ht : ts[i]? = some ⟨held, .unlock l :: ops⟩) : Steps ts i (ts.set i ⟨held.erase l, ops⟩)

section Steps

variable {rank : L → Nat} {ts ts' : List (LockThread L)} {i : Nat} {es : List Nat}

theorem step_cases (h : step ts i = some ts') : Steps ts i ts' := by
  unfold step at h
  split at h
  case h_1 held l ops ht =>
    split_ifs at h with hfree
    cases h
    exact .lock ht hfree
  case h_2 held l ops ht =>
    cases h
    exact .unlock ht
  case h_3 => cases h

theorem AllOrdered.after_step (hstep : step ts i = some ts') (h : AllOrdered rank ts) :
    AllOrdered rank ts' := by
  cases step_cases hstep with
  | lock ht _ => exact h.set (h _ (List.mem_of_getElem? ht)).2
  | unlock ht =>
      obtain ⟨rest, rfl, hrest⟩ := h _ (List.mem_of_getElem? ht)
      refine h.set ?_
      rwa [List.erase_cons_head]

theorem remaining_step (hstep : step ts i = some ts') : remaining ts' + 1 = remaining ts := by
  cases step_cases hstep with
  | lock ht _ => exact remaining_set ht rfl
  | unlock ht => exact remaining_set ht rfl

/-- A thread that cannot go on waits for a lock that some thread holds. -/
theorem blocked_of_stuck {t : LockThread L} (ht : ts[i]? = some t) (htodo : t.todo ≠ [])
    (hstuck : step ts i = none) :
    ∃ l ops, t.todo = .lock l :: ops ∧ ∃ u ∈ ts, l ∈ u.held := by
  obtain ⟨held, todo⟩ := t
  cases todo with
  | nil => exact absurd rfl htodo
  | cons op ops =>
      rw [step, ht] at hstuck
      cases op with
      | lock l =>
          simp only [ite_eq_right_iff, reduceCtorEq, imp_false, not_forall, not_not] at hstuck
          obtain ⟨u, hu, hl⟩ := hstuck
          exact ⟨l, ops, rfl, u, hu, hl⟩
      | unlock l => cases hstuck

/-- Ordered threads that cannot go on are finished: a blocked thread waits for
one that waits for a higher lock. -/
theorem finished_of_stuck (h : AllOrdered rank ts) (hstuck : ∀ i, step ts i = none) :
    Finished ts := by
  -- From one blocked thread there would be blocked threads that wait for locks of any rank.
  have hclimb : (∃ t ∈ ts, t.todo ≠ []) →
      ∀ n, ∃ t ∈ ts, t.todo ≠ [] ∧ n ≤ wanted rank t := by
    rintro ⟨t, ht, htodo⟩ n
    induction n with
    | zero => exact ⟨t, ht, htodo, Nat.zero_le _⟩
    | succ n ih =>
        obtain ⟨t, ht, htodo, hn⟩ := ih
        obtain ⟨i, hi⟩ := List.mem_iff_getElem?.mp ht
        obtain ⟨l, ops, hl, u, hu, hlu⟩ := blocked_of_stuck hi htodo (hstuck i)
        have hne : u.todo ≠ [] := todo_ne_nil (h u hu) (List.ne_nil_of_mem hlu)
        obtain ⟨j, hj⟩ := List.mem_iff_getElem?.mp hu
        obtain ⟨l', ops', hl', _⟩ := blocked_of_stuck hj hne (hstuck j)
        have hord := h u hu
        rw [hl'] at hord
        have hlt : rank l < rank l' := hord.1 l hlu
        refine ⟨u, hu, hne, ?_⟩
        simp only [wanted, hl, hl'] at hn ⊢
        omega
  intro t ht
  by_cases htodo : t.todo = []
  · have hord := h t ht
    rw [htodo] at hord
    exact ⟨hord, htodo⟩
  · obtain ⟨bound, hb⟩ := exists_wanted_le rank ts
    obtain ⟨u, hu, _, hlarge⟩ := hclimb ⟨t, ht, htodo⟩ (bound + 1)
    have hsmall := hb u hu
    omega

theorem AllOrdered.of_run (h : AllOrdered rank ts) (run : GuardedRun step Unguarded ts es ts') :
    AllOrdered rank ts' :=
  run.invariant (fun _ _ _ _ hstep h => h.after_step hstep) h

/-- Every step takes one operation away. -/
theorem length_of_run (run : GuardedRun step Unguarded ts es ts') :
    es.length + remaining ts' = remaining ts := by
  induction run with
  | refl ts => simp
  | cons _ hstep _ ih =>
      have := remaining_step hstep
      simp only [List.length_cons]
      omega

/-- From ordered threads, a run can be continued until all threads are finished. -/
theorem AllOrdered.completes (h : AllOrdered rank ts) :
    ∃ es ts', GuardedRun step Unguarded ts es ts' ∧ Finished ts' := by
  induction hn : remaining ts generalizing ts with
  | zero =>
      refine ⟨[], ts, .refl ts, finished_of_stuck h fun i => ?_⟩
      cases hstep : step ts i with
      | none => rfl
      | some ts' =>
          have := remaining_step hstep
          omega
  | succ n ih =>
      by_cases hstuck : ∀ i, step ts i = none
      · exact ⟨[], ts, .refl ts, finished_of_stuck h hstuck⟩
      · obtain ⟨i, hi⟩ := not_forall.mp hstuck
        obtain ⟨next, hstep⟩ := Option.ne_none_iff_exists'.mp hi
        have hless := remaining_step hstep
        obtain ⟨es, ts', hrun, hdone⟩ := ih (h.after_step hstep) (by omega)
        exact ⟨i :: es, ts', .cons trivial hstep hrun, hdone⟩

/-! ## Exclusion -/

/-- Where a lock is held behind a step, it was held before or has just been taken. -/
theorem held_of_step {l : L} {j : Nat} {u : LockThread L} (hstep : step ts i = some ts')
    (hu : ts'[j]? = some u) (hl : l ∈ u.held) :
    (∃ t, ts[j]? = some t ∧ l ∈ t.held) ∨ (j = i ∧ ∀ t ∈ ts, l ∉ t.held) := by
  cases step_cases hstep with
  | @lock held l' ops ht hfree =>
      rcases getElem?_set_cases hu with ⟨rfl, rfl⟩ | hold
      · rcases List.mem_cons.mp hl with rfl | hmem
        · exact .inr ⟨rfl, hfree⟩
        · exact .inl ⟨_, ht, hmem⟩
      · exact .inl ⟨u, hold, hl⟩
  | unlock ht =>
      rcases getElem?_set_cases hu with ⟨rfl, rfl⟩ | hold
      · exact .inl ⟨_, ht, List.mem_of_mem_erase hl⟩
      · exact .inl ⟨u, hold, hl⟩

theorem Exclusive.after_step (hstep : step ts i = some ts') (h : Exclusive ts) :
    Exclusive ts' := by
  intro j k t u l hj hk ht hu
  rcases held_of_step hstep hj ht with ⟨t₀, hj₀, ht₀⟩ | ⟨rfl, hfree⟩
  · rcases held_of_step hstep hk hu with ⟨u₀, hk₀, hu₀⟩ | ⟨_, hfree⟩
    · exact h j k t₀ u₀ l hj₀ hk₀ ht₀ hu₀
    · exact absurd ht₀ (hfree t₀ (List.mem_of_getElem? hj₀))
  · rcases held_of_step hstep hk hu with ⟨u₀, hk₀, hu₀⟩ | ⟨rfl, _⟩
    · exact absurd hu₀ (hfree u₀ (List.mem_of_getElem? hk₀))
    · rfl

theorem Exclusive.of_run (h : Exclusive ts) (run : GuardedRun step Unguarded ts es ts') :
    Exclusive ts' :=
  run.invariant (fun _ _ _ _ hstep h => h.after_step hstep) h

/-! ## Locks that are never released -/

/-- A thread that is ordered above locks which it never releases. -/
def Above (rank : L → Nat) (base : List L) (t : LockThread L) : Prop :=
  ∃ held, t.held = held ++ base ∧ Ordered rank held t.todo

/-- A thread that has still to take a lock which it never releases keeps the
lock and does not finish, whatever the other threads do. -/
theorem stays_blocked {base : List L} {l : L} (hl : l ∈ base) {t : LockThread L}
    (ht : ts[i]? = some t) (habove : Above rank base t) (hmem : .lock l ∈ t.todo)
    (run : GuardedRun step Unguarded ts es ts') :
    ∃ t', ts'[i]? = some t' ∧ l ∈ t'.held ∧ .lock l ∈ t'.todo := by
  suffices h : ∃ t', ts'[i]? = some t' ∧ Above rank base t' ∧ .lock l ∈ t'.todo by
    obtain ⟨t', ht', ⟨held, hheld, _⟩, hmem'⟩ := h
    exact ⟨t', ht', hheld ▸ List.mem_append_right held hl, hmem'⟩
  refine run.invariant
    (I := fun ts => ∃ t', ts[i]? = some t' ∧ Above rank base t' ∧ .lock l ∈ t'.todo)
    ?_ ⟨t, ht, habove, hmem⟩
  rintro ts j ts' _ hstep ⟨t, ht, ⟨held, hheld, hord⟩, hmem⟩
  have hi := (List.getElem?_eq_some_iff.mp ht).1
  cases step_cases hstep with
  | @lock held' l' ops hj hfree =>
      by_cases hji : j = i
      · subst hji
        cases ht.symm.trans hj
        -- The lock that is taken is not the one that the thread holds for good.
        have hne : l ≠ l' := by
          rintro rfl
          exact hfree _ (List.mem_of_getElem? ht) (hheld ▸ List.mem_append_right held hl)
        refine ⟨_, List.getElem?_set_self hi, ⟨l' :: held, ?_, hord.2⟩, ?_⟩
        · exact congrArg (l' :: ·) hheld
        · simpa [hne] using hmem
      · exact ⟨t, (List.getElem?_set_ne hji).trans ht, ⟨held, hheld, hord⟩, hmem⟩
  | @unlock held' l' ops hj =>
      by_cases hji : j = i
      · subst hji
        cases ht.symm.trans hj
        obtain ⟨rest, rfl, hrest⟩ := hord
        refine ⟨_, List.getElem?_set_self hi, ⟨rest, ?_, hrest⟩, ?_⟩
        · simp only at hheld
          rw [hheld, List.cons_append, List.erase_cons_head]
        · simpa using hmem
      · exact ⟨t, (List.getElem?_set_ne hji).trans ht, ⟨held, hheld, hord⟩, hmem⟩

end Steps

end LockThread

/-! ## Programs with scoped guards -/

/-- What a program does to locks. A guard takes its lock for the scope of its
body, and a choice may be one of infinitely many. -/
inductive LockProgram (L : Type)
  | skip
  | guarded (l : L) (body : LockProgram L)
  | seq (first second : LockProgram L)
  | either (left right : LockProgram L)
  | any (branch : Nat → LockProgram L)
  | many (body : LockProgram L)

namespace LockProgram

/-- The operations of one execution. -/
inductive Trace : LockProgram L → List (LockOp L) → Prop
  | skip : Trace .skip []
  | guarded {l : L} {body : LockProgram L} {ops : List (LockOp L)} (h : Trace body ops) :
      Trace (.guarded l body) (.lock l :: ops ++ [.unlock l])
  | seq {first second : LockProgram L} {ops ops' : List (LockOp L)} (h : Trace first ops)
      (h' : Trace second ops') : Trace (.seq first second) (ops ++ ops')
  | left {left right : LockProgram L} {ops : List (LockOp L)} (h : Trace left ops) :
      Trace (.either left right) ops
  | right {left right : LockProgram L} {ops : List (LockOp L)} (h : Trace right ops) :
      Trace (.either left right) ops
  | any {branch : Nat → LockProgram L} {ops : List (LockOp L)} (i : Nat)
      (h : Trace (branch i) ops) : Trace (.any branch) ops
  | stop {body : LockProgram L} : Trace (.many body) []
  | again {body : LockProgram L} {ops ops' : List (LockOp L)} (h : Trace body ops)
      (h' : Trace (.many body) ops') : Trace (.many body) (ops ++ ops')

/-- Every lock has at least this rank, and the locks inside a guard have higher
ranks than its own. -/
def Nests (rank : L → Nat) : Nat → LockProgram L → Prop
  | _, skip => True
  | n, guarded l body => n ≤ rank l ∧ Nests rank (rank l + 1) body
  | n, seq first second => Nests rank n first ∧ Nests rank n second
  | n, either left right => Nests rank n left ∧ Nests rank n right
  | n, any branch => ∀ i, Nests rank n (branch i)
  | n, many body => Nests rank n body

section Nests

variable (rank : L → Nat) (n : Nat)

@[simp] theorem nests_skip : Nests rank n .skip := trivial

@[simp] theorem nests_guarded (l : L) (body : LockProgram L) :
    Nests rank n (.guarded l body) ↔ n ≤ rank l ∧ Nests rank (rank l + 1) body := Iff.rfl

@[simp] theorem nests_seq (first second : LockProgram L) :
    Nests rank n (.seq first second) ↔ Nests rank n first ∧ Nests rank n second := Iff.rfl

@[simp] theorem nests_either (left right : LockProgram L) :
    Nests rank n (.either left right) ↔ Nests rank n left ∧ Nests rank n right := Iff.rfl

@[simp] theorem nests_any (branch : Nat → LockProgram L) :
    Nests rank n (.any branch) ↔ ∀ i, Nests rank n (branch i) := Iff.rfl

@[simp] theorem nests_many (body : LockProgram L) :
    Nests rank n (.many body) ↔ Nests rank n body := Iff.rfl

end Nests

variable {rank : L → Nat} {p : LockProgram L} {ops : List (LockOp L)} {n : Nat}

/-- A program whose guards nest upwards is ordered in front of what is ordered. -/
theorem Trace.ordered_append (h : Trace p ops) (hp : Nests rank n p) {held : List L}
    {rest : List (LockOp L)} (hheld : ∀ l ∈ held, rank l < n) (hrest : Ordered rank held rest) :
    Ordered rank held (ops ++ rest) := by
  induction h generalizing n held rest with
  | skip => exact hrest
  | @guarded l body ops _ ih =>
      obtain ⟨hle, hbody⟩ := hp
      have hinside : Ordered rank (l :: held) (ops ++ (.unlock l :: rest)) := by
        refine ih hbody ?_ ⟨held, rfl, hrest⟩
        intro k hk
        rcases List.mem_cons.mp hk with rfl | hmem
        · exact Nat.lt_succ_self _
        · exact Nat.lt_succ_of_lt ((hheld k hmem).trans_le hle)
      rw [List.append_assoc, List.cons_append]
      exact ⟨fun k hk => (hheld k hk).trans_le hle, hinside⟩
  | seq _ _ ih ih' =>
      rw [List.append_assoc]
      exact ih hp.1 hheld (ih' hp.2 hheld hrest)
  | left _ ih => exact ih hp.1 hheld hrest
  | right _ ih => exact ih hp.2 hheld hrest
  | any i _ ih => exact ih (hp i) hheld hrest
  | stop => exact hrest
  | again _ _ ih ih' =>
      rw [List.append_assoc]
      exact ih hp hheld (ih' hp hheld hrest)

theorem Trace.ordered (h : Trace p ops) (hp : Nests rank n p) : Ordered rank [] ops := by
  have happend : Ordered rank [] (ops ++ []) := h.ordered_append hp nofun rfl
  rwa [List.append_nil] at happend

end LockProgram

end Foundation
