import Mathlib.Data.List.Induction

/-!
# Machines with labelled steps

A machine performs an action or refuses it. Its runs are the action lists it performs from
a state, and what each performed action extends holds of every run. A condition on the
steps of a run speaks of an action and the state it is about to be performed in.
-/

namespace Foundations.Machine

variable {S A : Type}

def run (step : S → A → Option S) : S → List A → Option S
  | s, [] => some s
  | s, a :: as => (step s a).bind fun s' => run step s' as

/-- Every action of the run is performed in a state that meets the condition. -/
def Meets (cond : S → A → Prop) (step : S → A → Option S) : S → List A → Prop
  | _, [] => True
  | s, a :: as => cond s a ∧ ∀ s', step s a = some s' → Meets cond step s' as

variable {step : S → A → Option S} {cond : S → A → Prop}

instance decidableMeets [∀ s a, Decidable (cond s a)] :
    ∀ (s : S) (as : List A), Decidable (Meets cond step s as)
  | _, [] => isTrue trivial
  | s, a :: as =>
    match performed : step s a with
    | none => decidable_of_iff (cond s a) (by simp [Meets, performed])
    | some s' =>
      have := decidableMeets s' as
      decidable_of_iff (cond s a ∧ Meets cond step s' as) (by simp [Meets, performed])

theorem run_append (s : S) (earlier later : List A) :
    run step s (earlier ++ later) = (run step s earlier).bind fun mid => run step mid later := by
  induction earlier generalizing s with
  | nil => rfl
  | cons a as ih =>
    rw [List.cons_append, run, run, Option.bind_assoc]
    cases step s a with
    | none => rfl
    | some s' => exact ih s'

/-- A run that is evaluated to a state of the given kind. -/
theorem exists_run {s : S} {as : List A} {p : S → Bool} (evaluated : (run step s as).any p = true) :
    ∃ s', run step s as = some s' ∧ p s' = true :=
  (Option.any_eq_true p _).mp evaluated

theorem run_singleton (s : S) (a : A) : run step s [a] = step s a := by
  rw [run]
  cases step s a <;> rfl

theorem Meets.append {s : S} {earlier later : List A} (meets : Meets cond step s (earlier ++ later))
    {mid : S} (reached : run step s earlier = some mid) :
    Meets cond step s earlier ∧ Meets cond step mid later := by
  induction earlier generalizing s with
  | nil =>
    cases reached
    exact ⟨trivial, meets⟩
  | cons a as ih =>
    obtain ⟨here, rest⟩ := meets
    obtain ⟨s', performed, reached'⟩ := Option.bind_eq_some_iff.mp reached
    refine ⟨⟨here, ?_⟩, (ih (rest s' performed) reached').2⟩
    intro s'' performed'
    rw [performed, Option.some.injEq] at performed'
    subst performed'
    exact (ih (rest s' performed) reached').1

theorem Meets.snoc {s mid : S} {as : List A} (meets : Meets cond step s as)
    (reached : run step s as = some mid) {a : A} (here : cond mid a) :
    Meets cond step s (as ++ [a]) := by
  induction as generalizing s with
  | nil =>
    cases reached
    exact ⟨here, fun _ _ => trivial⟩
  | cons a' as ih =>
    obtain ⟨s', performed, reached'⟩ := Option.bind_eq_some_iff.mp reached
    refine ⟨meets.1, fun s'' performed' => ?_⟩
    rw [performed, Option.some.injEq] at performed'
    subst performed'
    exact ih (meets.2 s' performed) reached'

/-- The run rule: what each performed action extends holds of every run that meets the
condition. -/
theorem run_induction {P : List A → S → Prop} {s : S} (nil : P [] s)
    (snoc : ∀ as a mid s', P as mid → cond mid a → step mid a = some s' → P (as ++ [a]) s')
    {as : List A} (meets : Meets cond step s as) {s' : S} (reached : run step s as = some s') :
    P as s' := by
  induction as using List.reverseRecOn generalizing s' with
  | nil =>
    cases reached
    exact nil
  | append_singleton as a ih =>
    rw [run_append] at reached
    obtain ⟨mid, before, last⟩ := Option.bind_eq_some_iff.mp reached
    obtain ⟨meets', here, _⟩ := meets.append before
    rw [run_singleton] at last
    exact snoc as a mid s' (ih meets' before) here last

/-- Along a run only the steps it performs count. -/
theorem Meets.imp {cond' : S → A → Prop}
    (weaker : ∀ s a s', step s a = some s' → cond s a → cond' s a) {s s' : S} {as : List A}
    (reached : run step s as = some s') (meets : Meets cond step s as) :
    Meets cond' step s as := by
  induction as generalizing s with
  | nil => trivial
  | cons a as ih =>
    obtain ⟨mid, performed, reached'⟩ := Option.bind_eq_some_iff.mp reached
    refine ⟨weaker s a mid performed meets.1, ?_⟩
    intro s'' performed'
    rw [performed, Option.some.injEq] at performed'
    subst performed'
    exact ih reached' (meets.2 mid performed)

theorem meets_true (s : S) (as : List A) : Meets (fun _ _ => True) step s as := by
  induction as generalizing s with
  | nil => trivial
  | cons a as ih => exact ⟨trivial, fun s' _ => ih s'⟩

/-- The run rule without a condition. -/
theorem run_invariant {P : List A → S → Prop} {s : S} (nil : P [] s)
    (snoc : ∀ as a mid s', P as mid → step mid a = some s' → P (as ++ [a]) s') {as : List A}
    {s' : S} (reached : run step s as = some s') : P as s' :=
  run_induction nil (fun as a mid s' holds _ performed => snoc as a mid s' holds performed)
    (meets_true s as) reached

end Foundations.Machine
