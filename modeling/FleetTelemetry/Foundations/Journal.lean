import FleetTelemetry.Foundations.Interleaving

/-!
# Runs and their journal

The journal of a run holds the writes of its commits in commit order, and nothing of the
transactions that did not commit. The rule here carries a property of the journal and the
committed state through a run, next to invariants that are known already.
-/

namespace Foundations

variable {C D S W K E A : Type} {R : S → Type} {eng : Engine D S R W K E}
  {body : C → Txn S R E A} {env : (K → Prop) → D → D → Prop} {d : D}

/-- The states runs reach with what has been written to the journal on the way. Changes from
outside leave no writes in it. -/
inductive Journal (eng : Engine D S R W K E) (body : C → Txn S R E A)
    (env : (K → Prop) → D → D → Prop) (d : D) : State C D S R W K E A → List W → Prop
  | start : Journal eng body env d (.start d) []
  | commit {s ws} (t : Nat) {o} {a : A} (prior : Journal eng body env d s ws)
      (running : s.sessions t = some o) (point : o.rest = .ret a) :
      Journal eng body env d { s.put t none with
        db := eng.view o s.db
        log := s.log ++ [.returned o.call o.answered a s.db (eng.view o s.db)] }
        (ws ++ o.pending)
  | other {s s' ws} (prior : Journal eng body env d s ws) (step : Step eng body env s s')
      (unreturned : ∀ c answered a before after,
        s'.log ≠ s.log ++ [.returned c answered a before after]) :
      Journal eng body env d s' ws

namespace Journal

theorem reachable {s : State C D S R W K E A} {ws : List W}
    (journal : Journal eng body env d s ws) : Reachable eng body env d s := by
  induction journal with
  | start => exact .refl
  | commit t prior running point ih => exact .tail ih (.commit t running point)
  | other prior step unreturned ih => exact .tail ih step

theorem snoc_ne_self {X : Type} (xs : List X) (x : X) : xs ≠ xs ++ [x] := by simp

/-- Every run has a journal. -/
theorem exists_of_reachable {s : State C D S R W K E A} (reached : Reachable eng body env d s) :
    ∃ ws, Journal eng body env d s ws := by
  induction reached with
  | refl => exact ⟨[], .start⟩
  | @tail s s' _ step ih =>
    obtain ⟨ws, journal⟩ := ih
    cases step with
    -- only a commit writes, and what it writes was pending
    | commit t running point => exact ⟨_, .commit t journal running point⟩
    | begin t c idle =>
      exact ⟨ws, .other journal (.begin t c idle) fun _ _ _ _ _ => snoc_ne_self _ _⟩
    | statement t running point free done =>
      exact ⟨ws, .other journal (.statement t running point free done)
        fun _ _ _ _ _ => snoc_ne_self _ _⟩
    | abort t running =>
      exact ⟨ws, .other journal (.abort t running) fun _ _ _ _ _ => snoc_ne_self _ _⟩
    -- the other events that end a call are no commits
    | fail t running point free failed =>
      exact ⟨ws, .other journal (.fail t running point free failed) (by simp)⟩
    | raise t running point => exact ⟨ws, .other journal (.raise t running point) (by simp)⟩
    | outside allowed => exact ⟨ws, .other journal (.outside allowed) (by simp)⟩

/-- Nothing has been written while no call has returned. -/
theorem nil_of_unlogged {s : State C D S R W K E A} {ws : List W}
    (journal : Journal eng body env d s ws) (unlogged : s.log = []) : ws = [] := by
  induction journal with
  | start => rfl
  | commit t prior running point ih => simp at unlogged
  | @other s s' ws prior step unreturned ih =>
    refine ih ?_
    cases step with
    | begin | statement | abort => exact unlogged
    | commit | fail | raise | outside => simp at unlogged

/-- What a commit, and a change from outside, preserve of the journal and the state holds
throughout every run. -/
theorem invariant {G : D → Prop} {I : D → Session C S R W K E A → Prop} {Q : List W → D → Prop}
    (inv : Invariants eng body env G I) (good : G d) (start : Q [] d)
    (commit : ∀ ws db o (a : A), G db → I db o → o.rest = .ret a → Q ws db →
      Q (ws ++ o.pending) (eng.view o db))
    (outside : ∀ ws held db db', Q ws db → env held db db' → Q ws db')
    {s : State C D S R W K E A} {ws : List W} (journal : Journal eng body env d s ws) :
    Q ws s.db := by
  induction journal with
  | start => exact start
  | commit t prior running point ih =>
    have holds := inv.reachable good prior.reachable
    exact commit _ _ _ _ holds.1 (holds.2 t _ running) point ih
  | @other s s' ws prior step unreturned ih =>
    cases step with
    -- a commit is never without its entry
    | commit t running point => exact (unreturned _ _ _ _ _ rfl).elim
    | outside allowed => exact outside _ _ _ _ ih allowed
    | begin | statement | fail | raise | abort => exact ih

end Journal

end Foundations
