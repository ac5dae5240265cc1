import FleetTelemetry.Foundations.Interleaving

/-!
# Induction over histories

An answer may be out of date when its transaction commits, but that it was once given stays
true of the history. The rule here carries a property of the log and the committed state
together with what each open transaction remembers of the log.
-/

namespace Foundations

variable {C D S W K E A : Type} {R : S → Type} {eng : Engine D S R W K E}
  {body : C → Txn S R E A} {env : (K → Prop) → D → D → Prop}

/-- What has to be shown of a property `G` of histories with the state they lead to, and of
what an open transaction remembers, so that both hold throughout every run. Of the event of
a commit `good` is known already. -/
structure Histories (eng : Engine D S R W K E) (body : C → Txn S R E A)
    (env : (K → Prop) → D → D → Prop) (good : Event C S R D E A → Prop)
    (G : List (Event C S R D E A) → D → Prop)
    (J : List (Event C S R D E A) → Session C S R W K E A → Prop) : Prop where
  fresh : ∀ log c, J log (.fresh body c)
  own : ∀ log d o q next r ws, G log d → J log o → o.rest = .exec q next →
    eng.exec q (eng.view o d) = .ok (r, ws) →
    J log (o.advance q r next ws (eng.locks q (eng.view o d)))
  later : ∀ log e o, J log o → J (log ++ [e]) o
  committed : ∀ log d o a, G log d → J log o → o.rest = .ret a →
    good (.returned o.call o.answered a d (eng.view o d)) →
    G (log ++ [.returned o.call o.answered a d (eng.view o d)]) (eng.view o d)
  raised : ∀ log d c e, G log d → G (log ++ [.raised c e d]) d
  outside : ∀ log held d d', G log d → env held d d' → G (log ++ [.outside d d']) d'

namespace Histories

variable {good : Event C S R D E A → Prop} {G : List (Event C S R D E A) → D → Prop}
  {J : List (Event C S R D E A) → Session C S R W K E A → Prop}

/-- Both properties hold of a system state. -/
def Holds (G : List (Event C S R D E A) → D → Prop)
    (J : List (Event C S R D E A) → Session C S R W K E A → Prop)
    (s : State C D S R W K E A) : Prop :=
  G s.log s.db ∧ ∀ t o, s.sessions t = some o → J s.log o

/-- An event that ends transaction `t`, or none of them, leaves the others their memory. -/
theorem holds_snoc (rule : Histories eng body env good G J) {s : State C D S R W K E A}
    (holds : Holds G J s) (e : Event C S R D E A) (sessions) {d : D} (history : G (s.log ++ [e]) d)
    (fewer : ∀ u o, sessions u = some o → s.sessions u = some o) :
    Holds G J ⟨d, sessions, s.log ++ [e]⟩ :=
  ⟨history, fun u o open_ => rule.later s.log e o (holds.2 u o (fewer u o open_))⟩

theorem fewer_put {s : State C D S R W K E A} {t u : Nat} {o : Session C S R W K E A}
    (open_ : (s.put t none).sessions u = some o) : s.sessions u = some o := by
  by_cases here : u = t
  · subst here
    rw [State.put_self] at open_
    cases open_
  · rwa [State.put_other _ _ _ _ here] at open_

theorem step (rule : Histories eng body env good G J) {s s' : State C D S R W K E A}
    (holds : Holds G J s) (step : Step eng body env s s') (explained : ∀ e ∈ s'.log, good e) :
    Holds G J s' := by
  cases step with
  -- a new session has done nothing yet
  | begin t c idle =>
    refine ⟨holds.1, ?_⟩
    intro u o open_
    by_cases here : u = t
    · subst here
      rw [State.put_self] at open_
      cases open_
      exact rule.fresh s.log c
    · rw [State.put_other _ _ _ _ here] at open_
      exact holds.2 u o open_
  -- a statement changes its own session and logs nothing
  | @statement t o q next r ws running point free done =>
    refine ⟨holds.1, ?_⟩
    intro u o' open_
    by_cases here : u = t
    · subst here
      rw [State.put_self] at open_
      cases open_
      exact rule.own s.log s.db o q next r ws holds.1 (holds.2 u o running) point done
    · rw [State.put_other _ _ _ _ here] at open_
      exact holds.2 u o' open_
  -- an ended session is closed, and its event is added to the history
  | fail t running point free failed =>
    exact rule.holds_snoc holds _ _ (rule.raised _ _ _ _ holds.1) fun _ _ => fewer_put
  | raise t running point =>
    exact rule.holds_snoc holds _ _ (rule.raised _ _ _ _ holds.1) fun _ _ => fewer_put
  -- the rule for a commit may use that the event is explained
  | @commit t o a running point =>
    have known := explained _ (List.mem_append_right _ (List.mem_singleton_self _))
    have extended := rule.committed s.log s.db o a holds.1 (holds.2 t o running) point known
    exact rule.holds_snoc holds _ _ extended fun _ _ => fewer_put
  | abort t running => exact ⟨holds.1, fun u o open_ => holds.2 u o (fewer_put open_)⟩
  | @outside d allowed =>
    exact rule.holds_snoc holds _ _ (rule.outside _ _ _ _ holds.1 allowed) fun _ _ => id

/-- The run rule for histories. -/
theorem reachable (rule : Histories eng body env good G J) {d : D}
    (explained : ∀ s, Reachable eng body env d s → ∀ e ∈ s.log, good e) (start : G [] d)
    {s : State C D S R W K E A} (reached : Reachable eng body env d s) : Holds G J s := by
  induction reached with
  | refl => exact ⟨start, nofun⟩
  | tail prior step ih => exact rule.step ih step (explained _ (.tail prior step))

end Histories

end Foundations
