import FleetTelemetry.Foundations.Interleaving

/-!
# Executable schedules

A schedule names, step by step, which transaction moves. `perform` plays one move of a
schedule over finitely many transactions, refusing a move that is blocked on a lock, and
every schedule it accepts is a run of the step relation.
-/

namespace Foundations

variable {C D S W K E A : Type} {R : S → Type}

inductive Move (C : Type) where
  | begin (t : Nat) (c : C)
  | advance (t : Nat)
  | abort (t : Nat)

namespace State

variable [DecidableEq K]

/-- Some transaction in `ts` other than `t` holds one of the keys. -/
def blocked (ts : List Nat) (s : State C D S R W K E A) (t : Nat) (ks : List K) : Bool :=
  ts.any fun u => decide (u ≠ t) &&
    match s.sessions u with
    | some o => ks.any fun k => decide (k ∈ o.held)
    | none => false

def perform (eng : Engine D S R W K E) (body : C → Txn S R E A) (ts : List Nat)
    (s : State C D S R W K E A) : Move C → Option (State C D S R W K E A)
  | .begin t c =>
    if t ∈ ts then
      match s.sessions t with
      | none => some (s.put t (some (.fresh body c)))
      | some _ => none
    else none
  | .advance t =>
    match s.sessions t with
    | none => none
    | some o =>
      match o.rest with
      | .ret a => some { s.put t none with
          db := eng.view o s.db
          log := s.log ++ [.returned o.call o.answered a s.db (eng.view o s.db)] }
      | .raise e => some { s.put t none with log := s.log ++ [.raised o.call e s.db] }
      | .exec q next =>
        if blocked ts s t (eng.locks q (eng.view o s.db)) then none
        else match eng.exec q (eng.view o s.db) with
          | .error e => some { s.put t none with log := s.log ++ [.raised o.call e s.db] }
          | .ok (r, ws) =>
            some (s.put t (some (o.advance q r next ws (eng.locks q (eng.view o s.db)))))
  | .abort t => (s.sessions t).map fun _ => s.put t none

def performAll (eng : Engine D S R W K E) (body : C → Txn S R E A) (ts : List Nat) :
    State C D S R W K E A → List (Move C) → Option (State C D S R W K E A)
  | s, [] => some s
  | s, m :: moves => (s.perform eng body ts m).bind fun s' => performAll eng body ts s' moves

variable {eng : Engine D S R W K E} {body : C → Txn S R E A}
  {env : (K → Prop) → D → D → Prop} {ts : List Nat}

/-- Only the transactions in `ts` are open. -/
def Within (ts : List Nat) (s : State C D S R W K E A) : Prop :=
  ∀ t, t ∉ ts → s.sessions t = none

theorem free_of_not_blocked {s : State C D S R W K E A} (within : s.Within ts) (t : Nat)
    (ks : List K) (open_ : blocked ts s t ks = false) : ∀ k ∈ ks, ¬s.HeldByOther t k := by
  rintro k member ⟨u, o, apart, found, held⟩
  -- `blocked` only looks at `ts`, which is enough because nobody else is open
  have listed : u ∈ ts := by
    by_contra absent
    rw [within u absent] at found
    cases found
  have busy : blocked ts s t ks = true := by
    apply List.any_eq_true.mpr
    refine ⟨u, listed, ?_⟩
    simp only [apart, found, ne_eq, not_false_eq_true, decide_true, Bool.true_and,
      List.any_eq_true, decide_eq_true_eq]
    exact ⟨k, member, held⟩
  rw [open_] at busy
  cases busy

omit [DecidableEq K] in
theorem within_put {s : State C D S R W K E A} (within : s.Within ts) {t : Nat} (listed : t ∈ ts)
    (o : Option (Session C S R W K E A)) : (s.put t o).Within ts := by
  intro u absent
  have apart : u ≠ t := fun equal => absent (equal ▸ listed)
  rw [put_other s t u o apart]
  exact within u absent

omit [DecidableEq K] in
theorem listed_of_open {s : State C D S R W K E A} (within : s.Within ts) {t : Nat}
    {o : Session C S R W K E A} (running : s.sessions t = some o) : t ∈ ts := by
  by_contra absent
  rw [within t absent] at running
  cases running

theorem perform_step {s s' : State C D S R W K E A} {m : Move C} (within : s.Within ts)
    (moved : s.perform eng body ts m = some s') : Step eng body env s s' ∧ s'.Within ts := by
  cases m with
  | begin t c =>
    simp only [perform] at moved
    split at moved
    next listed =>
      cases idle : s.sessions t with
      | none =>
        simp only [idle, Option.some.injEq] at moved
        subst moved
        exact ⟨.begin t c idle, within_put within listed _⟩
      | some o => simp [idle] at moved
    · cases moved
  | abort t =>
    simp only [perform] at moved
    cases running : s.sessions t with
    | none => simp [running] at moved
    | some o =>
      simp only [running, Option.map_some, Option.some.injEq] at moved
      subst moved
      exact ⟨.abort t running, within_put within (listed_of_open within running) _⟩
  | advance t =>
    simp only [perform] at moved
    cases running : s.sessions t with
    | none => simp [running] at moved
    | some o =>
      have listed := listed_of_open within running
      -- what is left of the transaction decides between commit, exception and statement
      cases point : o.rest with
      | ret a =>
        simp only [running, point, Option.some.injEq] at moved
        subst moved
        exact ⟨.commit t running point, within_put within listed none⟩
      | raise e =>
        simp only [running, point, Option.some.injEq] at moved
        subst moved
        exact ⟨.raise t running point, within_put within listed none⟩
      | exec q next =>
        simp only [running, point] at moved
        split at moved
        · cases moved
        next open_ =>
          have free := free_of_not_blocked within t _ (by simpa using open_)
          split at moved
          next e failed =>
            cases moved
            exact ⟨.fail t running point free failed, within_put within listed none⟩
          next r ws done =>
            cases moved
            exact ⟨.statement t running point free done, within_put within listed _⟩

/-- Every accepted schedule is a run. -/
theorem performAll_reachable {d : D} {moves : List (Move C)} {s : State C D S R W K E A}
    (played : performAll eng body ts (.start d) moves = some s) :
    Reachable eng body env d s := by
  -- induction on the schedule, from any state it may have got to
  have general : ∀ (moves : List (Move C)) (s₀ : State C D S R W K E A), s₀.Within ts →
      performAll eng body ts s₀ moves = some s →
      Relation.ReflTransGen (Step eng body env) s₀ s := by
    intro moves
    induction moves with
    | nil =>
      intro s₀ _ same
      cases same
      exact .refl
    | cons m moves ih =>
      intro s₀ within rest
      simp only [performAll, Option.bind_eq_some_iff] at rest
      obtain ⟨s₁, moved, rest⟩ := rest
      obtain ⟨step, within₁⟩ := perform_step within moved
      exact .head step (ih s₁ within₁ rest)
  exact general moves (.start d) (fun _ _ => rfl) played

/-- A schedule that plays to a state with a decidable property reaches one. -/
theorem exists_reachable {d : D} {moves : List (Move C)} {p : State C D S R W K E A → Bool}
    (played : (performAll eng body ts (.start d) moves).map p = some true) :
    ∃ s, Reachable eng body env d s ∧ p s = true := by
  obtain ⟨s, found, holds⟩ := Option.map_eq_some_iff.mp played
  exact ⟨s, performAll_reachable found, holds⟩

section Where

variable {check : D → Session C S R W K E A → Bool}

/-- Every listed transaction that is about to commit passes the check. -/
def ready (check : D → Session C S R W K E A → Bool) (ts : List Nat)
    (s : State C D S R W K E A) : Bool :=
  ts.all fun t =>
    match s.sessions t with
    | some o =>
      match o.rest with
      | .ret _ => check s.db o
      | _ => true
    | none => true

def performAllWhere (check : D → Session C S R W K E A → Bool) (eng : Engine D S R W K E)
    (body : C → Txn S R E A) (ts : List Nat) :
    State C D S R W K E A → List (Move C) → Option (State C D S R W K E A)
  | s, [] => some s
  | s, m :: moves =>
    if ready check ts s then
      (s.perform eng body ts m).bind fun s' => performAllWhere check eng body ts s' moves
    else none

omit [DecidableEq K] in
theorem commitsWhere_of_ready {s s' : State C D S R W K E A} (within : s.Within ts)
    (passed : ready check ts s = true) :
    CommitsWhere (fun d o => check d o = true) eng s s' := by
  intro t o a running point _
  have listed := List.all_eq_true.mp passed t (listed_of_open within running)
  simpa [running, point] using listed

theorem performAllWhere_reachable {d : D} {moves : List (Move C)} {s : State C D S R W K E A}
    (played : performAllWhere check eng body ts (.start d) moves = some s) :
    ReachableWhere (fun d o => check d o = true) eng body env d s := by
  -- from any state the schedule may have got to
  have general : ∀ (moves : List (Move C)) (s₀ : State C D S R W K E A), s₀.Within ts →
      performAllWhere check eng body ts s₀ moves = some s →
      Relation.ReflTransGen (fun s s' => Step eng body env s s' ∧
        CommitsWhere (fun d o => check d o = true) eng s s') s₀ s := by
    intro moves
    induction moves with
    | nil =>
      intro s₀ _ same
      cases same
      exact .refl
    | cons m moves ih =>
      intro s₀ within rest
      simp only [performAllWhere] at rest
      split at rest
      next passed =>
        obtain ⟨s₁, moved, rest⟩ := Option.bind_eq_some_iff.mp rest
        obtain ⟨step, within₁⟩ := perform_step within moved
        exact .head ⟨step, commitsWhere_of_ready within passed⟩ (ih s₁ within₁ rest)
      · cases rest
  exact general moves (.start d) (fun _ _ => rfl) played

theorem exists_reachableWhere {d : D} {moves : List (Move C)} {p : State C D S R W K E A → Bool}
    (played : (performAllWhere check eng body ts (.start d) moves).map p = some true) :
    ∃ s, ReachableWhere (fun d o => check d o = true) eng body env d s ∧ p s = true := by
  obtain ⟨s, found, holds⟩ := Option.map_eq_some_iff.mp played
  exact ⟨s, performAllWhere_reachable found, holds⟩

end Where

end State

end Foundations
