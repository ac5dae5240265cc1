import FleetTelemetry.Foundations.ReadCommitted
import Mathlib.Data.List.Induction

/-!
# Induction over interleavings

Rules that turn facts about one transaction into facts about every run of many: the
lock table is exclusive in every reachable state, an invariant of one open transaction
survives the commits of the others, what a commit does is read off that invariant, and
the log of a run is a chain of states from the initial to the current one.
-/

namespace Foundations

variable {C D S W K E A : Type} {R : S → Type}
  {eng : Engine D S R W K E} {body : C → Txn S R E A} {env : (K → Prop) → D → D → Prop}

namespace State

/-- No key is held by two open transactions. -/
def Exclusive (s : State C D S R W K E A) : Prop :=
  ∀ t u o o', t ≠ u → s.sessions t = some o → s.sessions u = some o' →
    List.Disjoint o.held o'.held

theorem exclusive_start (d : D) : (start d : State C D S R W K E A).Exclusive := by
  intro t u o o' _ left
  cases left

/-- Replacing one session keeps the table exclusive if the new one avoids the others. -/
theorem exclusive_put {s : State C D S R W K E A} (exclusive : s.Exclusive) (t : Nat)
    (new : Option (Session C S R W K E A))
    (avoids : ∀ o u o', new = some o → u ≠ t → s.sessions u = some o' →
      List.Disjoint o.held o'.held) : (s.put t new).Exclusive := by
  intro a b o o' apart left right
  -- one session was written, and it can be either of the two
  by_cases first : a = t
  · subst a
    rw [put_self] at left
    rw [put_other s t b new apart.symm] at right
    exact avoids o b o' left apart.symm right
  · rw [put_other s t a new first] at left
    by_cases second : b = t
    · subst b
      rw [put_self] at right
      exact List.disjoint_symm (avoids o' a o right first left)
    · rw [put_other s t b new second] at right
      exact exclusive a b o o' apart left right

theorem exclusive_step {s s' : State C D S R W K E A} (exclusive : s.Exclusive)
    (step : Step eng body env s s') : s'.Exclusive := by
  cases step with
  | begin t c idle =>
    apply exclusive_put exclusive
    intro o u o' new _ _
    cases new
    exact List.disjoint_nil_left _
  | @statement t o q next r ws running point free done =>
    apply exclusive_put exclusive
    intro new u o' same apart other
    cases same
    -- a lock newly taken was free, one held before was disjoint already
    intro k mine theirs
    rcases List.mem_append.mp mine with old | taken
    · exact exclusive t u o o' apart.symm running other old theirs
    · exact free k taken ⟨u, o', apart, other, theirs⟩
  | fail t running point free failed =>
    exact exclusive_put exclusive t none (by intro o u o' none; cases none)
  | raise t running point =>
    exact exclusive_put exclusive t none (by intro o u o' none; cases none)
  | commit t running point =>
    exact exclusive_put exclusive t none (by intro o u o' none; cases none)
  | abort t running =>
    exact exclusive_put exclusive t none (by intro o u o' none; cases none)
  | outside allowed => exact exclusive

end State

theorem Reachable.exclusive {d : D} {s : State C D S R W K E A}
    (reached : Reachable eng body env d s) : s.Exclusive := by
  induction reached with
  | refl => exact State.exclusive_start d
  | tail _ step ih => exact State.exclusive_step ih step

/-- What has to be shown of a property `G` of committed states and a property `I` of an
open transaction over a committed state, so that both hold throughout every run. -/
structure Invariants (eng : Engine D S R W K E) (body : C → Txn S R E A)
    (env : (K → Prop) → D → D → Prop) (G : D → Prop)
    (I : D → Session C S R W K E A → Prop) : Prop where
  fresh : ∀ d c, G d → I d (.fresh body c)
  own : ∀ d o q next r ws, G d → I d o → o.rest = .exec q next →
    eng.exec q (eng.view o d) = .ok (r, ws) →
    I d (o.advance q r next ws (eng.locks q (eng.view o d)))
  committed : ∀ d o a, G d → I d o → o.rest = .ret a → G (eng.view o d)
  frame : ∀ d o o' a, G d → I d o → I d o' → List.Disjoint o.held o'.held →
    o'.rest = .ret a → I (eng.view o' d) o
  outside : ∀ held d d', G d → env held d d' → G d'
  frame_outside : ∀ held d d' o, G d → I d o → (∀ k ∈ o.held, held k) →
    env held d d' → I d' o

section Rules

variable {G : D → Prop} {I : D → Session C S R W K E A → Prop}

/-- Both properties hold of a system state. -/
def Holds (G : D → Prop) (I : D → Session C S R W K E A → Prop)
    (s : State C D S R W K E A) : Prop :=
  G s.db ∧ ∀ t o, s.sessions t = some o → I s.db o

theorem holds_put {s : State C D S R W K E A} (holds : Holds G I s) (t : Nat)
    (new : Option (Session C S R W K E A)) (good : ∀ o, new = some o → I s.db o) :
    Holds G I (s.put t new) := by
  refine ⟨holds.1, ?_⟩
  intro u o found
  by_cases same : u = t
  · subst u
    rw [State.put_self] at found
    exact good o found
  · rw [State.put_other s t u new same] at found
    exact holds.2 u o found

theorem Invariants.step (inv : Invariants eng body env G I) {s s' : State C D S R W K E A}
    (exclusive : s.Exclusive) (holds : Holds G I s) (step : Step eng body env s s') :
    Holds G I s' := by
  cases step with
  | begin t c idle =>
    apply holds_put holds
    intro o new
    cases new
    exact inv.fresh s.db c holds.1
  | @statement t o q next r ws running point free done =>
    apply holds_put holds
    intro o' new
    cases new
    exact inv.own s.db o q next r ws holds.1 (holds.2 t o running) point done
  | fail t running point free failed => exact holds_put holds t none (by simp)
  | raise t running point => exact holds_put holds t none (by simp)
  | @commit t o a running point =>
    refine ⟨inv.committed s.db o a holds.1 (holds.2 t o running) point, ?_⟩
    intro u o' found
    by_cases same : u = t
    · subst u
      simp [State.put] at found
    -- the other session did not move, but the state under it did: this is what `frame` is for
    · have other : s.sessions u = some o' := by simpa [State.put, same] using found
      exact inv.frame s.db o' o a holds.1 (holds.2 u o' other) (holds.2 t o running)
        (exclusive u t o' o same other running) point
  | abort t running => exact holds_put holds t none (by simp)
  | @outside d allowed =>
    -- an outside change respects every held lock, so in particular those of session `u`
    refine ⟨inv.outside s.Held s.db d holds.1 allowed, ?_⟩
    intro u o found
    exact inv.frame_outside s.Held s.db d o holds.1 (holds.2 u o found)
      (fun k held => ⟨u, o, found, held⟩) allowed

/-- The run rule: invariants preserved by each step hold in every reachable state. -/
theorem Invariants.reachable (inv : Invariants eng body env G I) {d : D} (good : G d)
    {s : State C D S R W K E A} (reached : Reachable eng body env d s) : Holds G I s := by
  induction reached with
  | refl => exact ⟨good, by intro t o found; cases found⟩
  | tail prior step ih => exact inv.step (Reachable.exclusive prior) ih step

/-- What a committing transaction does follows from its invariant at its last point. -/
theorem Invariants.returned (inv : Invariants eng body env G I)
    {P : C → List (Sigma R) → A → D → D → Prop}
    (spec : ∀ d o a, G d → I d o → o.rest = .ret a → P o.call o.answered a d (eng.view o d))
    {d : D} (good : G d) {s : State C D S R W K E A} (reached : Reachable eng body env d s)
    {c : C} {answered : List (Sigma R)} {a : A} {before after : D}
    (logged : .returned c answered a before after ∈ s.log) : P c answered a before after := by
  induction reached with
  | refl => cases logged
  | @tail mid last prior step ih =>
    cases step with
    | begin | statement | abort => exact ih logged
    | fail | raise | outside =>
      rcases List.mem_append.mp logged with old | new
      · exact ih old
      · simp at new
    | @commit t o a' running point =>
      rcases List.mem_append.mp logged with old | new
      · exact ih old
      -- the new event: its session satisfied the invariant in the state it committed in
      · obtain ⟨sound, open_⟩ := inv.reachable good prior
        simp only [List.mem_singleton, Event.returned.injEq] at new
        obtain ⟨rfl, rfl, rfl, rfl, rfl⟩ := new
        exact spec mid.db o a sound (open_ t o running) point

/-- If the step commits transaction `t`, the committed state and the transaction it is
committed from are as the condition says. -/
def CommitsWhere (cond : D → Session C S R W K E A → Prop) (eng : Engine D S R W K E)
    (s s' : State C D S R W K E A) : Prop :=
  ∀ t o a, s.sessions t = some o → o.rest = .ret a →
    s' = { s.put t none with
      db := eng.view o s.db
      log := s.log ++ [.returned o.call o.answered a s.db (eng.view o s.db)] } →
    cond s.db o

/-- The states of the runs in which every commit meets a condition. -/
def ReachableWhere (cond : D → Session C S R W K E A → Prop) (eng : Engine D S R W K E)
    (body : C → Txn S R E A) (env : (K → Prop) → D → D → Prop) (d : D)
    (s : State C D S R W K E A) : Prop :=
  Relation.ReflTransGen (fun s s' => Step eng body env s s' ∧ CommitsWhere cond eng s s')
    (.start d) s

theorem ReachableWhere.reachable {cond : D → Session C S R W K E A → Prop} {d : D}
    {s : State C D S R W K E A} (reached : ReachableWhere cond eng body env d s) :
    Reachable eng body env d s := by
  induction reached with
  | refl => exact .refl
  | tail _ step ih => exact .tail ih step.1

/-- A committed transaction was in its last state, and met the condition there. -/
theorem Invariants.returned_where (inv : Invariants eng body env G I)
    {cond : D → Session C S R W K E A → Prop} {d : D} (good : G d)
    {s : State C D S R W K E A} (reached : ReachableWhere cond eng body env d s) {c : C}
    {answered : List (Sigma R)} {a : A} {before after : D}
    (logged : .returned c answered a before after ∈ s.log) :
    ∃ o, o.call = c ∧ o.rest = .ret a ∧ I before o ∧ cond before o ∧
      after = eng.view o before := by
  induction reached with
  | refl => cases logged
  | @tail mid last prior step ih =>
    obtain ⟨step, commits⟩ := step
    cases step with
    | begin | statement | abort => exact ih logged
    | fail | raise | outside =>
      rcases List.mem_append.mp logged with old | new
      · exact ih old
      · simp at new
    | @commit t o a' running point =>
      rcases List.mem_append.mp logged with old | new
      · exact ih old
      -- the session is dropped by its commit, so it is looked up in the state before
      · have open_ := (inv.reachable good (ReachableWhere.reachable prior)).2
        simp only [List.mem_singleton, Event.returned.injEq] at new
        obtain ⟨rfl, rfl, rfl, rfl, rfl⟩ := new
        exact ⟨o, rfl, point, open_ t o running, commits t o a running point rfl, rfl⟩

end Rules

/-- The events lead from one committed state to the other, each starting where the one
before it ended. -/
inductive Chain : D → List (Event C S R D E A) → D → Prop
  | nil (d : D) : Chain d [] d
  | snoc {d : D} {log} (e : Event C S R D E A) (prior : Chain d log e.before) :
      Chain d (log ++ [e]) e.after

theorem Reachable.chain {d : D} {s : State C D S R W K E A}
    (reached : Reachable eng body env d s) : Chain d s.log s.db := by
  induction reached with
  | refl => exact .nil d
  | tail _ step ih =>
    cases step with
    | begin | statement | abort => exact ih
    | fail t running _ _ _ => exact .snoc (.raised _ _ _) ih
    | raise t running _ => exact .snoc (.raised _ _ _) ih
    | commit t running _ => exact .snoc (.returned _ _ _ _ _) ih
    | outside allowed => exact .snoc (.outside _ _) ih

/-- The log rule: what each logged event extends from the state before it to the state
after it holds of the whole log and the current state. -/
theorem Chain.invariant (P : List (Event C S R D E A) → D → Prop)
    (good : Event C S R D E A → Prop) {d d' : D} {log} (chain : Chain d log d')
    (all : ∀ e ∈ log, good e) (nil : P [] d)
    (snoc : ∀ log e, good e → P log e.before → P (log ++ [e]) e.after) : P log d' := by
  induction chain with
  | nil => exact nil
  | snoc e prior ih =>
    refine snoc _ e (all e (by simp)) (ih ?_)
    intro e' member
    exact all e' (List.mem_append_left _ member)

/-- What every logged event preserves holds of the current state and before each event. -/
theorem Chain.holds_before (G : D → Prop) (good : Event C S R D E A → Prop) {d d' : D} {log}
    (chain : Chain d log d') (all : ∀ e ∈ log, good e) (start : G d)
    (step : ∀ e, good e → G e.before → G e.after) : G d' ∧ ∀ e ∈ log, G e.before := by
  apply Chain.invariant (fun log d => G d ∧ ∀ e ∈ log, G e.before) good chain all
  · exact ⟨start, by simp⟩
  · rintro log e explained ⟨holds, earlier⟩
    refine ⟨step e explained holds, ?_⟩
    intro e' member
    rcases List.mem_append.mp member with old | new
    · exact earlier e' old
    · obtain rfl := List.mem_singleton.mp new
      exact holds

theorem Chain.split {d d' : D} {left right : List (Event C S R D E A)}
    (chain : Chain d (left ++ right) d') : ∃ mid, Chain d left mid ∧ Chain mid right d' := by
  induction right using List.reverseRecOn generalizing d' with
  | nil =>
    rw [List.append_nil] at chain
    exact ⟨d', chain, .nil d'⟩
  | append_singleton right e ih =>
    rw [← List.append_assoc] at chain
    -- the last event of the chain is `e`
    generalize whole : left ++ right ++ [e] = log at chain
    cases chain with
    | nil => simp at whole
    | snoc e' prior =>
      obtain ⟨rfl, same⟩ := List.append_inj' whole rfl
      obtain rfl := List.singleton_inj.mp same
      obtain ⟨mid, first, rest⟩ := ih prior
      exact ⟨mid, first, .snoc _ rest⟩

/-- A step only adds to the log. -/
theorem Step.log_grows {s s' : State C D S R W K E A} (step : Step eng body env s s') :
    ∃ later, s'.log = s.log ++ later := by
  cases step with
  | begin | statement | abort => exact ⟨[], by simp⟩
  | fail | raise | commit | outside => exact ⟨_, rfl⟩

/-- The committed state after the events of a log. -/
def committed (d : D) (log : List (Event C S R D E A)) : D :=
  log.foldl (fun _ e => e.after) d

theorem committed_append (d : D) (earlier later : List (Event C S R D E A)) :
    committed d (earlier ++ later) = committed (committed d earlier) later :=
  List.foldl_append

theorem Chain.committed_eq {d d' : D} {log : List (Event C S R D E A)} (chain : Chain d log d') :
    committed d log = d' := by
  cases chain with
  | nil => rfl
  | snoc e prior => rw [committed_append]; rfl

/-- The events between two points of a log lead from the one committed state to the other. -/
theorem Chain.between {d d' : D} {log : List (Event C S R D E A)} (chain : Chain d log d')
    {n m : Nat} (order : n ≤ m) :
    Chain (committed d (log.take n)) ((log.take m).drop n) (committed d (log.take m)) := by
  have cut : log.take m ++ log.drop m = log := List.take_append_drop m log
  obtain ⟨mid, first, _⟩ := Chain.split (cut.symm ▸ chain)
  have cut' : (log.take m).take n ++ (log.take m).drop n = log.take m := List.take_append_drop n _
  obtain ⟨mid', early, late⟩ := Chain.split (cut'.symm ▸ first)
  rw [List.take_take, Nat.min_eq_left order] at early
  rw [early.committed_eq, first.committed_eq]
  exact late

theorem Reachable.outside_logged {d : D} {s : State C D S R W K E A}
    (reached : Reachable eng body env d s) {before after : D}
    (logged : .outside before after ∈ s.log) : ∃ held, env held before after := by
  induction reached with
  | refl => cases logged
  | tail _ step ih =>
    cases step with
    -- nothing is logged by these, and another event by the next three
    | begin | statement | abort => exact ih logged
    | fail | raise | commit =>
      rcases List.mem_append.mp logged with old | new
      · exact ih old
      · simp at new
    | outside allowed =>
      rcases List.mem_append.mp logged with old | new
      · exact ih old
      · simp only [List.mem_singleton, Event.outside.injEq] at new
        obtain ⟨rfl, rfl⟩ := new
        exact ⟨_, allowed⟩

end Foundations
