import FleetTelemetry.Foundations.Interleaving

/-!
# Serial meaning of locked transactions

A transaction that keeps its row locks until commit takes effect as if it ran alone, on
the committed state it ends in, at the instant it commits. The exceptions are the
statements a policy calls loose: they read without a lock, so their answers may be out of
date by the time the transaction commits. `Discipline.returned` is the rule that reads
the effect of every committed transaction off its body, loose answers as recorded.
-/

namespace Foundations

variable {C D S W K E A : Type} {R : S → Type}

/-- The answer and the writes are the ones the state gives. -/
def Engine.Answers (eng : Engine D S R W K E) (d : D) (q : S) (r : R q) (ws : List W) : Prop :=
  eng.exec q d = .ok (r, ws)

/-- What a locking scheme promises of each statement: the keys it relies on being held
already, the keys it surely holds after a given answer, and the answers and writes it may
have without any lock. -/
structure Policy (S : Type) (R : S → Type) (W K : Type) where
  needs : S → List K
  gains : (q : S) → R q → List K
  loose : (q : S) → R q → List W → Prop

/-- The statements answered so far, with their writes, lead from one body to another. -/
inductive Replays (eng : Engine D S R W K E) (answer : D → (q : S) → R q → List W → Prop) :
    D → Txn S R E A → List (Sigma R) → List W → Txn S R E A → Prop
  | done (d : D) (t : Txn S R E A) : Replays eng answer d t [] [] t
  | step {d : D} {q : S} {next : R q → Txn S R E A} {r : R q} {ws as ws' t}
      (first : answer d q r ws)
      (later : Replays eng answer (eng.writeAll ws d) (next r) as ws' t) :
      Replays eng answer d (.exec q next) (⟨q, r⟩ :: as) (ws ++ ws') t

namespace Replays

variable {eng : Engine D S R W K E} {answer answer' : D → (q : S) → R q → List W → Prop}

theorem snoc {d : D} {t : Txn S R E A} {q : S} {next : R q → Txn S R E A} {r : R q} {as ws ws'}
    (replays : Replays eng answer d t as ws (.exec q next))
    (last : answer (eng.writeAll ws d) q r ws') :
    Replays eng answer d t (as ++ [⟨q, r⟩]) (ws ++ ws') (next r) := by
  -- the induction needs the end point of the replay as a variable
  generalize target : (Txn.exec q next : Txn S R E A) = u at replays
  induction replays with
  | done d t =>
    subst target
    simpa using Replays.step last (.done (eng.writeAll ws' d) (next r))
  | step first _ ih =>
    rw [List.cons_append, List.append_assoc]
    refine .step first (ih ?_ target)
    rwa [Engine.writeAll_append] at last

theorem mono (weaker : ∀ d q r ws, answer d q r ws → answer' d q r ws)
    {d : D} {t u : Txn S R E A} {as ws} (replays : Replays eng answer d t as ws u) :
    Replays eng answer' d t as ws u := by
  induction replays with
  | done d t => exact .done d t
  | step first _ ih => exact .step (weaker _ _ _ _ first) ih

/-- Replaying carries over along any relation that the answers respect. -/
theorem transport (rel : D → D → Prop)
    (respects : ∀ d d' q r ws, rel d d' → answer d q r ws →
      answer' d' q r ws ∧ rel (eng.writeAll ws d) (eng.writeAll ws d'))
    {d d' : D} {t u : Txn S R E A} {as ws} (related : rel d d')
    (replays : Replays eng answer d t as ws u) : Replays eng answer' d' t as ws u := by
  induction replays generalizing d' with
  | done d t => exact .done d' t
  | step first _ ih =>
    obtain ⟨same, related'⟩ := respects _ _ _ _ _ related first
    exact .step same (ih related')

/-- A property that each answered statement preserves holds after all of them. -/
theorem preserves {P : D → Prop} (step : ∀ d q r ws, answer d q r ws → P d → P (eng.writeAll ws d))
    {d : D} {t u : Txn S R E A} {as ws} (replays : Replays eng answer d t as ws u) (holds : P d) :
    P (eng.writeAll ws d) := by
  induction replays with
  | done d t => exact holds
  | step first _ ih =>
    rw [Engine.writeAll_append]
    exact ih (step _ _ _ _ first holds)

theorem ret_inv {d : D} {a b : A} {as ws} (replays : Replays eng answer d (.ret a) as ws (.ret b)) :
    a = b ∧ as = [] ∧ ws = [] := by
  cases replays with
  | done => exact ⟨rfl, rfl, rfl⟩

theorem raise_inv {d : D} {e : E} {a : A} {as ws}
    (replays : Replays eng answer d (.raise e) as ws (.ret a)) : False := by
  cases replays

theorem exec_inv {d : D} {q : S} {next : R q → Txn S R E A} {a : A} {as ws}
    (replays : Replays eng answer d (.exec q next) as ws (.ret a)) :
    ∃ r ws₁ as' ws₂, answer d q r ws₁ ∧
      Replays eng answer (eng.writeAll ws₁ d) (next r) as' ws₂ (.ret a) ∧
      as = ⟨q, r⟩ :: as' ∧ ws = ws₁ ++ ws₂ := by
  cases replays with
  | step first later => exact ⟨_, _, _, _, first, later, rfl, rfl⟩

/-- A sequence of two bodies that returns has returned from the first on the way. -/
theorem bind_inv {B : Type} {d : D} {t : Txn S R E A} {f : A → Txn S R E B} {b : B} {as ws}
    (replays : Replays eng answer d (t >>= f) as ws (.ret b)) :
    ∃ a as₁ ws₁ as₂ ws₂, Replays eng answer d t as₁ ws₁ (.ret a) ∧
      Replays eng answer (eng.writeAll ws₁ d) (f a) as₂ ws₂ (.ret b) ∧
      as = as₁ ++ as₂ ∧ ws = ws₁ ++ ws₂ := by
  -- along the first body: each statement it sends is the first one of the replay
  induction t generalizing d as ws with
  | ret a => exact ⟨a, [], [], as, ws, .done d _, replays, rfl, rfl⟩
  | raise e => exact (raise_inv replays).elim
  | exec q next ih =>
    obtain ⟨r, ws₀, as', ws', first, rest, rfl, rfl⟩ := exec_inv replays
    obtain ⟨a, as₁, ws₁, as₂, ws₂, left, right, rfl, rfl⟩ := ih r rest
    rw [← Engine.writeAll_append] at right
    exact ⟨a, ⟨q, r⟩ :: as₁, ws₀ ++ ws₁, as₂, ws₂, .step first left, right, rfl, by simp⟩

/-- A run that returns is a replay with every answer the one the state gives. -/
theorem of_run {d d' : D} {t : Txn S R E A} {a : A} (done : eng.run t d = .ok (a, d')) :
    ∃ as ws, Replays eng eng.Answers d t as ws (.ret a) ∧
      d' = eng.writeAll ws d := by
  induction t generalizing d with
  | ret b =>
    cases done
    exact ⟨[], [], .done d' _, rfl⟩
  | raise e => cases done
  | exec q next ih =>
    simp only [Engine.run] at done
    split at done
    · cases done
    next r ws answered =>
      obtain ⟨as, ws', rest, rfl⟩ := ih r done
      exact ⟨_, _, .step answered rest, (Engine.writeAll_append _ _ _ _).symm⟩

/-- With every answer the one the state gives, replaying is running. -/
theorem run_eq {d : D} {t u : Txn S R E A} {as ws}
    (replays : Replays eng eng.Answers d t as ws u) :
    eng.run t d = eng.run u (eng.writeAll ws d) := by
  induction replays with
  | done d t => rfl
  | step first _ ih =>
    rw [Engine.writeAll_append, ← ih]
    have answered : eng.exec _ _ = _ := first
    simp only [Engine.run, answered]

end Replays

/-- The answer and the writes are those of some state, not necessarily this one. -/
def Engine.AnswersSomewhere (eng : Engine D S R W K E) (_ : D) (q : S) (r : R q) (ws : List W) :
    Prop :=
  ∃ d, eng.exec q d = .ok (r, ws)

theorem Replays.elsewhere {eng : Engine D S R W K E} {d : D} (d' : D) {t u : Txn S R E A} {as ws}
    (replays : Replays eng eng.AnswersSomewhere d t as ws u) :
    Replays eng eng.AnswersSomewhere d' t as ws u := by
  refine replays.transport (fun _ _ => True) ?_ trivial
  intro d d' q r ws _ done
  exact ⟨done, trivial⟩

/-- Without any locking scheme an open transaction is still its body replayed, each answer
taken from the state its statement met. -/
theorem replays_invariants {eng : Engine D S R W K E} {env : (K → Prop) → D → D → Prop}
    {body : C → Txn S R E A} :
    Invariants eng body env (fun _ => True) fun d o =>
      Replays eng eng.AnswersSomewhere d (body o.call) o.answered o.pending o.rest where
  fresh d c _ := .done d (body c)
  own d o q next r ws _ replays point done := by
    rw [point] at replays
    exact replays.snoc ⟨eng.view o d, done⟩
  committed _ _ _ _ _ _ := trivial
  frame d _ o' _ _ replays _ _ _ := replays.elsewhere (eng.view o' d)
  outside _ _ _ _ _ := trivial
  frame_outside _ _ d' _ _ replays _ _ := replays.elsewhere d'

namespace Policy

variable (p : Policy S R W K) (eng : Engine D S R W K E)

/-- The answer is protected by the keys, or needs no protection. -/
def Covered (ks : List K) (d : D) (q : S) (r : R q) (ws : List W) : Prop :=
  (eng.exec q d = .ok (r, ws) ∧ p.needs q ⊆ ks ∧ eng.locks q d ⊆ ks) ∨ p.loose q r ws

/-- The answer is the one the state gives, or a loose one. -/
def Allowed (d : D) (q : S) (r : R q) (ws : List W) : Prop :=
  eng.exec q d = .ok (r, ws) ∨ p.loose q r ws

variable {p eng}

theorem Covered.mono {ks ks' : List K} (more : ks ⊆ ks') {d : D} {q : S} {r : R q} {ws : List W}
    (covered : p.Covered eng ks d q r ws) : p.Covered eng ks' d q r ws := by
  rcases covered with ⟨done, needs, locks⟩ | loose
  · exact .inl ⟨done, List.Subset.trans needs more, List.Subset.trans locks more⟩
  · exact .inr loose

theorem Covered.allowed {ks : List K} {d : D} {q : S} {r : R q} {ws : List W}
    (covered : p.Covered eng ks d q r ws) : p.Allowed eng d q r ws := by
  rcases covered with ⟨done, _⟩ | loose
  · exact .inl done
  · exact .inr loose

end Policy

/-- Every statement the body may send satisfies `P`. -/
inductive Txn.All (P : S → Prop) : Txn S R E A → Prop
  | ret (a : A) : All P (.ret a)
  | raise (e : E) : All P (.raise e)
  | exec {q : S} {next : R q → Txn S R E A} (here : P q) (later : ∀ r, All P (next r)) :
      All P (.exec q next)

theorem Txn.All.bind {B : Type} {P : S → Prop} {t : Txn S R E A} {f : A → Txn S R E B}
    (all : t.All P) (later : ∀ a, (f a).All P) : (t >>= f).All P := by
  induction all with
  | ret a => exact later a
  | raise e => exact .raise e
  | exec here _ ih => exact .exec here ih

theorem Replays.restrict {eng : Engine D S R W K E}
    {answer : D → (q : S) → R q → List W → Prop}
    (answer' : D → (q : S) → R q → List W → Prop) (P : S → Prop)
    (weaker : ∀ d q r ws, P q → answer d q r ws → answer' d q r ws)
    {d : D} {t u : Txn S R E A} {as ws} (all : t.All P)
    (replays : Replays eng answer d t as ws u) : Replays eng answer' d t as ws u := by
  induction replays with
  | done d t => exact .done d t
  | step first _ ih =>
    cases all with
    | exec here later => exact .step (weaker _ _ _ _ here first) (ih (later _))

/-- A body sends no statement before it holds the keys the statement relies on. -/
inductive Txn.Disciplined (p : Policy S R W K) : List K → Txn S R E A → Prop
  | ret (ks : List K) (a : A) : Disciplined p ks (.ret a)
  | raise (ks : List K) (e : E) : Disciplined p ks (.raise e)
  | exec {ks : List K} {q : S} {next : R q → Txn S R E A} (needs : p.needs q ⊆ ks)
      (later : ∀ r, Disciplined p (ks ++ p.gains q r) (next r)) : Disciplined p ks (.exec q next)

theorem Txn.Disciplined.mono {p : Policy S R W K} {ks ks' : List K} {t : Txn S R E A}
    (disciplined : t.Disciplined p ks) (more : ks ⊆ ks') : t.Disciplined p ks' := by
  induction disciplined generalizing ks' with
  | ret ks a => exact .ret ks' a
  | raise ks e => exact .raise ks' e
  | exec needs _ ih =>
    refine .exec (List.Subset.trans needs more) fun r => ih r ?_
    exact List.append_subset.mpr
      ⟨List.Subset.trans more (List.subset_append_left _ _), List.subset_append_right _ _⟩

theorem Txn.Disciplined.bind {B : Type} {p : Policy S R W K} {ks : List K} {t : Txn S R E A}
    {f : A → Txn S R E B} (disciplined : t.Disciplined p ks)
    (later : ∀ a ks', ks ⊆ ks' → (f a).Disciplined p ks') : (t >>= f).Disciplined p ks := by
  induction disciplined with
  | ret ks a => exact later a ks (List.Subset.refl ks)
  | raise ks e => exact .raise ks e
  | exec needs _ ih =>
    exact .exec needs fun r => ih r fun a ks' more =>
      later a ks' (List.Subset.trans (List.subset_append_left _ _) more)

/-- A body whose statements rely on no key is disciplined. -/
theorem Txn.All.disciplined {p : Policy S R W K} {t : Txn S R E A}
    (all : t.All fun q => p.needs q = []) (ks : List K) : t.Disciplined p ks := by
  induction all generalizing ks with
  | ret a => exact .ret ks a
  | raise e => exact .raise ks e
  | exec here _ ih =>
    refine .exec ?_ fun r => ih r _
    rw [here]
    exact List.nil_subset ks

/-- The laws of a locking scheme. `agree ks` relates the states that look the same to the
holder of the keys `ks`. -/
structure Discipline (eng : Engine D S R W K E) (env : (K → Prop) → D → D → Prop)
    (p : Policy S R W K) (agree : List K → D → D → Prop) : Prop where
  agree_refl : ∀ ks d, agree ks d d
  agree_trans : ∀ {ks d d' d''}, agree ks d d' → agree ks d' d'' → agree ks d d''
  gained : ∀ {q d r ws}, eng.exec q d = .ok (r, ws) → p.gains q r ⊆ eng.locks q d
  kept : ∀ {ks d d' q r ws}, agree ks d d' → p.Covered eng ks d q r ws →
    p.Covered eng ks d' q r ws ∧ agree ks (eng.writeAll ws d) (eng.writeAll ws d')
  apart : ∀ {ks ks' d q r ws}, p.Covered eng ks' d q r ws → List.Disjoint ks ks' →
    agree ks d (eng.writeAll ws d)
  outside : ∀ {ks held d d'}, env held d d' → (∀ k ∈ ks, held k) → agree ks d d'

namespace Discipline

variable {eng : Engine D S R W K E} {env : (K → Prop) → D → D → Prop} {body : C → Txn S R E A}
  {p : Policy S R W K} {agree : List K → D → D → Prop}

/-- The open transaction so far is its body replayed on the committed state. -/
def Serial (eng : Engine D S R W K E) (body : C → Txn S R E A) (p : Policy S R W K) (d : D)
    (o : Session C S R W K E A) : Prop :=
  o.rest.Disciplined p o.held ∧
    Replays eng (p.Covered eng o.held) d (body o.call) o.answered o.pending o.rest

theorem carried (laws : Discipline eng env p agree) {ks : List K} {d d' : D}
    (related : agree ks d d') {t u : Txn S R E A} {as ws}
    (replays : Replays eng (p.Covered eng ks) d t as ws u) :
    Replays eng (p.Covered eng ks) d' t as ws u := by
  refine replays.transport (agree ks) ?_ related
  intro d d' q r ws related covered
  exact laws.kept related covered

theorem invariants (laws : Discipline eng env p agree)
    (disciplined : ∀ c, (body c).Disciplined p []) :
    Invariants eng body env (fun _ => True) (Serial eng body p) where
  fresh d c _ := ⟨disciplined c, .done d (body c)⟩
  own d o q next r ws _ serial point done := by
    obtain ⟨sound, replays⟩ := serial
    rw [point] at sound replays
    cases sound with
    | exec needs later =>
      have more := List.subset_append_left o.held (eng.locks q (eng.view o d))
      have locked := List.subset_append_right o.held (eng.locks q (eng.view o d))
      constructor
      -- the rest of the body may rely on what this statement has locked, and the earlier
      -- answers stay covered because no lock is given back before the end
      · refine (later r).mono (List.append_subset.mpr ⟨more, ?_⟩)
        exact List.Subset.trans (laws.gained done) locked
      · have earlier := replays.mono fun d q r ws covered =>
          Policy.Covered.mono more covered
        exact earlier.snoc (.inl ⟨done, List.Subset.trans needs more, locked⟩)
  committed _ _ _ _ _ _ := trivial
  frame d o o' a _ serial serial' apart point := by
    obtain ⟨sound, replays⟩ := serial
    refine ⟨sound, laws.carried ?_ replays⟩
    -- the committing transaction only wrote under keys this one does not hold
    refine serial'.2.preserves (P := agree o.held d) ?_ (laws.agree_refl o.held d)
    intro d' q r ws covered reached
    exact laws.agree_trans reached (laws.apart covered apart)
  outside _ _ _ _ _ := trivial
  frame_outside held d d' o _ serial locked allowed := by
    obtain ⟨sound, replays⟩ := serial
    -- likewise for a change that the held locks keep out
    exact ⟨sound, laws.carried (laws.outside allowed locked) replays⟩

/-- Every committed transaction took the effect its body has on the state it committed
in, with each answer the one that state gives or a loose one. -/
theorem returned (laws : Discipline eng env p agree)
    (disciplined : ∀ c, (body c).Disciplined p []) {d : D} {s : State C D S R W K E A}
    (reached : Reachable eng body env d s) {c : C} {answered : List (Sigma R)} {a : A}
    {before after : D} (logged : .returned c answered a before after ∈ s.log) :
    ∃ ws, Replays eng (p.Allowed eng) before (body c) answered ws (.ret a) ∧
      after = eng.writeAll ws before := by
  refine (laws.invariants disciplined).returned
    (P := fun c answered a before after =>
      ∃ ws, Replays eng (p.Allowed eng) before (body c) answered ws (.ret a) ∧
        after = eng.writeAll ws before) ?_ trivial reached logged
  intro d o a _ serial point
  have replays := serial.2
  rw [point] at replays
  exact ⟨o.pending, replays.mono fun _ _ _ _ covered => covered.allowed, rfl⟩

end Discipline

end Foundations
