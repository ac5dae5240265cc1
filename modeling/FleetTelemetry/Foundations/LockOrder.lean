import FleetTelemetry.Foundations.Interleaving
import Mathlib.Data.Set.Finite.Lemmas

/-!
# Deadlock freedom from a lock order

If every body asks for its keys in the order of a rank, a transaction only ever waits for
one that holds a key of a higher rank. The waits-for relation of every reachable state is
then acyclic, and of finitely many open transactions one can always go on.
-/

namespace Foundations

variable {C D S W K E A : Type} {R : S → Type}

/-- Each key the body asks for is one it holds or ranks above all it holds, whatever state
its statements meet. -/
inductive Txn.Ascending (eng : Engine D S R W K E) (rank : K → Nat) :
    List K → Txn S R E A → Prop
  | ret (held : List K) (a : A) : Ascending eng rank held (.ret a)
  | raise (held : List K) (e : E) : Ascending eng rank held (.raise e)
  | exec {held : List K} {q : S} {next : R q → Txn S R E A}
      (above : ∀ d, ∀ k ∈ eng.locks q d, k ∈ held ∨ ∀ h ∈ held, rank h < rank k)
      (later : ∀ d r ws, eng.exec q d = .ok (r, ws) →
        Ascending eng rank (held ++ eng.locks q d) (next r)) :
      Ascending eng rank held (.exec q next)

theorem Txn.Ascending.bind {B : Type} {eng : Engine D S R W K E} {rank : K → Nat}
    {held : List K} {t : Txn S R E A} {f : A → Txn S R E B}
    (ascending : t.Ascending eng rank held) (later : ∀ a ks, (f a).Ascending eng rank ks) :
    (t >>= f).Ascending eng rank held := by
  induction ascending with
  | ret held a => exact later a held
  | raise held e => exact .raise held e
  | exec above _ ih => exact .exec above ih

/-- One more than the highest rank among the keys. -/
def level (rank : K → Nat) : List K → Nat
  | [] => 0
  | k :: ks => max (rank k + 1) (level rank ks)

theorem rank_lt_level {rank : K → Nat} {ks : List K} {k : K} (member : k ∈ ks) :
    rank k < level rank ks := by
  induction ks with
  | nil => cases member
  | cons first ks ih =>
    rw [level]
    rcases List.mem_cons.mp member with rfl | later
    · omega
    · have bound := ih later
      omega

theorem level_le {rank : K → Nat} {ks : List K} {n : Nat} (below : ∀ k ∈ ks, rank k < n) :
    level rank ks ≤ n := by
  induction ks with
  | nil => exact Nat.zero_le n
  | cons first ks ih =>
    have here := below first List.mem_cons_self
    have rest := ih fun k member => below k (List.mem_cons_of_mem _ member)
    rw [level]
    omega

variable {eng : Engine D S R W K E} {body : C → Txn S R E A} {env : (K → Prop) → D → D → Prop}

namespace State

/-- Transaction `t` is about to take a key that another open transaction `u` holds. -/
def WaitsFor (eng : Engine D S R W K E) (s : State C D S R W K E A) (t u : Nat) : Prop :=
  t ≠ u ∧ ∃ o q next o' k, s.sessions t = some o ∧ o.rest = .exec q next ∧
    s.sessions u = some o' ∧ k ∈ eng.locks q (eng.view o s.db) ∧ k ∈ o'.held

def Blocked (eng : Engine D S R W K E) (s : State C D S R W K E A) (t : Nat) : Prop :=
  ∃ u, s.WaitsFor eng t u

def Open (s : State C D S R W K E A) (t : Nat) : Prop := (s.sessions t).isSome = true

def waitsFor [DecidableEq K] (eng : Engine D S R W K E) (s : State C D S R W K E A)
    (t u : Nat) : Bool :=
  match s.sessions t, s.sessions u with
  | some o, some o' =>
    match o.rest with
    | .exec q _ =>
      decide (t ≠ u) && (eng.locks q (eng.view o s.db)).any fun k => decide (k ∈ o'.held)
    | _ => false
  | _, _ => false

theorem waitsFor_iff [DecidableEq K] (s : State C D S R W K E A) (t u : Nat) :
    s.waitsFor eng t u = true ↔ s.WaitsFor eng t u := by
  constructor
  -- both sessions are open, and the first is at a statement
  · intro waits
    unfold waitsFor at waits
    split at waits
    next o o' found other =>
      split at waits
      next q next point =>
        simp only [Bool.and_eq_true, decide_eq_true_eq, List.any_eq_true] at waits
        obtain ⟨apart, k, asked, held⟩ := waits
        exact ⟨apart, o, q, next, o', k, found, point, other, asked, held⟩
      · cases waits
    · cases waits
  · rintro ⟨apart, o, q, next, o', k, found, point, other, asked, held⟩
    simp only [waitsFor, found, other, point, Bool.and_eq_true, decide_eq_true_eq,
      List.any_eq_true]
    exact ⟨apart, k, asked, held⟩

end State

theorem Reachable.finite_open {d : D} {s : State C D S R W K E A}
    (reached : Reachable eng body env d s) : {t | s.Open t}.Finite := by
  -- one step changes one session
  have put : ∀ (s : State C D S R W K E A) (t : Nat) (o : Option (Session C S R W K E A)),
      {t | s.Open t}.Finite → {u | (s.put t o).Open u}.Finite := by
    intro s t o finite
    refine (finite.insert t).subset ?_
    intro u running
    by_cases same : u = t
    · exact .inl same
    · right
      simpa [State.Open, State.put_other s t u o same] using running
  induction reached with
  | refl =>
    refine Set.finite_empty.subset ?_
    intro t running
    simp [State.Open, State.start] at running
  | tail _ step ih =>
    cases step with
    | begin t c idle => exact put _ t _ ih
    | statement t running point free done => exact put _ t _ ih
    | fail t running point free failed => exact put _ t none ih
    | raise t running point => exact put _ t none ih
    | commit t running point => exact put _ t none ih
    | abort t running => exact put _ t none ih
    | outside allowed => exact ih

section Order

variable {rank : K → Nat}

theorem ascending_invariants (ascending : ∀ c, (body c).Ascending eng rank []) :
    Invariants eng body env (fun _ => True)
      (fun _ o => o.rest.Ascending eng rank o.held) where
  fresh d c _ := ascending c
  own d o q next r ws _ ordered point done := by
    rw [point] at ordered
    cases ordered with
    | exec above later => exact later (eng.view o d) r ws done
  committed _ _ _ _ _ _ := trivial
  frame _ _ _ _ _ ordered _ _ _ := ordered
  outside _ _ _ _ _ := trivial
  frame_outside _ _ _ _ _ ordered _ _ := ordered

/-- The level of the keys a transaction holds. -/
def State.level (rank : K → Nat) (s : State C D S R W K E A) (t : Nat) : Nat :=
  match s.sessions t with
  | some o => Foundations.level rank o.held
  | none => 0

/-- Waiting goes from lower to higher levels. -/
theorem Reachable.waitsFor_level (ascending : ∀ c, (body c).Ascending eng rank []) {d : D}
    {s : State C D S R W K E A} (reached : Reachable eng body env d s) {t u : Nat}
    (waits : s.WaitsFor eng t u) : s.level rank t < s.level rank u := by
  obtain ⟨apart, o, q, next, o', k, found, point, other, asked, held⟩ := waits
  have ordered : o.rest.Ascending eng rank o.held :=
    ((ascending_invariants ascending).reachable trivial reached).2 t o found
  rw [point] at ordered
  have notOwn : k ∉ o.held := fun own => reached.exclusive t u o o' apart found other own held
  cases ordered with
  | exec above later =>
    have higher := (above _ k asked).resolve_left notOwn
    simp only [State.level, found, other]
    exact Nat.lt_of_le_of_lt (level_le higher) (rank_lt_level held)

theorem Reachable.acyclic (ascending : ∀ c, (body c).Ascending eng rank []) {d : D}
    {s : State C D S R W K E A} (reached : Reachable eng body env d s) (t : Nat) :
    ¬Relation.TransGen (s.WaitsFor eng) t t := by
  have climbs : ∀ u, Relation.TransGen (s.WaitsFor eng) t u → s.level rank t < s.level rank u := by
    intro u path
    induction path with
    | single waits => exact reached.waitsFor_level ascending waits
    | tail _ waits ih => exact ih.trans (reached.waitsFor_level ascending waits)
  exact fun cycle => Nat.lt_irrefl _ (climbs t cycle)

/-- Of the open transactions, one on the highest level is not blocked. -/
theorem Reachable.exists_free (ascending : ∀ c, (body c).Ascending eng rank []) {d : D}
    {s : State C D S R W K E A} (reached : Reachable eng body env d s) {t : Nat}
    (running : s.Open t) : ∃ u, s.Open u ∧ ¬s.Blocked eng u := by
  obtain ⟨u, running', highest⟩ :=
    Set.exists_max_image {t | s.Open t} (s.level rank) reached.finite_open ⟨t, running⟩
  refine ⟨u, running', ?_⟩
  rintro ⟨v, waits⟩
  have climbs := reached.waitsFor_level ascending waits
  obtain ⟨_, _, _, _, o', _, _, _, other, _, _⟩ := waits
  have running'' : s.Open v := by simp [State.Open, other]
  have bound := highest v running''
  omega

end Order

end Foundations
