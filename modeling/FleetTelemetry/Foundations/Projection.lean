import FleetTelemetry.Foundations.Locking

/-!
# Projection of interleavings

Calls of two kinds whose statements look at different parts of the state do not disturb
each other: taking the calls of one kind out of a run leaves a run of the others, with the
same answers, the same locks and the same replies. The relation between the states of the
two runs is a parameter, so that a client says what its part of the state is.
-/

namespace Foundations

variable {C D S W K E A : Type} {R : S → Type}

theorem Txn.All.mono {P Q : S → Prop} {t : Txn S R E A} (all : t.All P)
    (weaker : ∀ q, P q → Q q) : t.All Q := by
  induction all with
  | ret a => exact .ret a
  | raise e => exact .raise e
  | exec here _ ih => exact .exec (weaker _ here) ih

/-- What a caller is told of a call. -/
def Event.reply : Event C S R D E A → Option (C × Except E A)
  | .returned call _ result _ _ => some (call, .ok result)
  | .raised call error _ => some (call, .error error)
  | .outside _ _ => none

def replies (log : List (Event C S R D E A)) : List (C × Except E A) := log.filterMap Event.reply

theorem replies_snoc (log : List (Event C S R D E A)) (e : Event C S R D E A) :
    replies (log ++ [e]) = replies log ++ e.reply.toList := by
  unfold replies
  rw [List.filterMap_append, List.filterMap_cons, List.filterMap_nil]
  cases e.reply <;> rfl

/-- The statements `mine` and their writes `ours` keep to one part of the state, the others
to the rest. `same d d'` relates a state of the full run to one of the projected run. -/
structure Split (eng : Engine D S R W K E) (env env' : (K → Prop) → D → D → Prop)
    (mine : S → Prop) (ours : W → Prop) (same : D → D → Prop) : Prop where
  locks : ∀ {q d d'}, mine q → same d d' → eng.locks q d' = eng.locks q d
  exec : ∀ {q d d'}, mine q → same d d' → eng.exec q d' = eng.exec q d
  writes : ∀ {q d r ws}, eng.exec q d = .ok (r, ws) → ∀ w ∈ ws, ours w ↔ mine q
  kept : ∀ {w d d'}, ours w → same d d' → same (eng.write d w) (eng.write d' w)
  spared : ∀ {w d d'}, ¬ours w → same d d' → same (eng.write d w) d'
  outside : ∀ {held held' : K → Prop} {d d' e}, env held d e → (∀ k, held' k → held k) →
    same d d' → same e d' ∨ ∃ e', env' held' d' e' ∧ same e e'

namespace Split

variable {eng : Engine D S R W K E} {env env' : (K → Prop) → D → D → Prop} {mine : S → Prop}
  {ours : W → Prop} {same : D → D → Prop}

theorem keptAll (split : Split eng env env' mine ours same) {ws : List W}
    (all : ∀ w ∈ ws, ours w) {d d' : D} (related : same d d') :
    same (eng.writeAll ws d) (eng.writeAll ws d') := by
  induction ws generalizing d d' with
  | nil => exact related
  | cons w ws ih =>
    apply ih fun w' member => all w' (List.mem_cons_of_mem _ member)
    exact split.kept (all w List.mem_cons_self) related

theorem sparedAll (split : Split eng env env' mine ours same) {ws : List W}
    (none : ∀ w ∈ ws, ¬ours w) {d d' : D} (related : same d d') :
    same (eng.writeAll ws d) d' := by
  induction ws generalizing d with
  | nil => exact related
  | cons w ws ih =>
    apply ih fun w' member => none w' (List.mem_cons_of_mem _ member)
    exact split.spared (none w List.mem_cons_self) related

end Split

/-- An open transaction keeps to the statements and writes of its own kind. -/
structure Session.Within (kind : C → Bool) (mine : S → Prop) (ours : W → Prop)
    (o : Session C S R W K E A) : Prop where
  rest : o.rest.All fun q => mine q ↔ kind o.call = true
  pending : ∀ w ∈ o.pending, ours w ↔ kind o.call = true

/-- The second state is the first without the calls of the other kind. -/
structure Projects (kind : C → Bool) (mine : S → Prop) (ours : W → Prop) (same : D → D → Prop)
    (s s' : State C D S R W K E A) : Prop where
  db : same s.db s'.db
  sessions : ∀ t, s'.sessions t = (s.sessions t).filter fun o => kind o.call
  log : replies s'.log = (replies s.log).filter fun reply => kind reply.1
  within : ∀ t o, s.sessions t = some o → o.Within kind mine ours

section Projection

variable {eng : Engine D S R W K E} {body : C → Txn S R E A}
  {env env' : (K → Prop) → D → D → Prop} {mine : S → Prop} {ours : W → Prop}
  {same : D → D → Prop} {kind : C → Bool} {s s' : State C D S R W K E A}

namespace Projects

/-- A transaction of the kind is open in both runs. -/
theorem running (projects : Projects kind mine ours same s s') {t : Nat}
    {o : Session C S R W K E A} (open_ : s.sessions t = some o) (is : kind o.call = true) :
    s'.sessions t = some o := by
  rw [projects.sessions, open_, Option.filter_some, if_pos is]

theorem held (projects : Projects kind mine ours same s s') {k : K} (held : s'.Held k) :
    s.Held k := by
  obtain ⟨u, o, open_, member⟩ := held
  rw [projects.sessions, Option.filter_eq_some_iff] at open_
  exact ⟨u, o, open_.1, member⟩

/-- The projected run has fewer transactions, so a key that is free stays free. -/
theorem free (projects : Projects kind mine ours same s s') {t : Nat} {k : K}
    (free : ¬s.HeldByOther t k) : ¬s'.HeldByOther t k := by
  rintro ⟨u, o, apart, open_, member⟩
  rw [projects.sessions, Option.filter_eq_some_iff] at open_
  exact free ⟨u, o, apart, open_.1, member⟩

/-- Replacing a session on both sides, by one of the kind or by none. -/
theorem put (projects : Projects kind mine ours same s s') (t : Nat)
    (new : Option (Session C S R W K E A)) (within : ∀ o, new = some o → o.Within kind mine ours) :
    Projects kind mine ours same (s.put t new)
      (s'.put t (new.filter fun o => kind o.call)) where
  db := projects.db
  -- the session is seen on both sides, or its kind is not and it is on neither
  sessions u := by
    by_cases here : u = t
    · subst here
      rw [State.put_self, State.put_self]
    · rw [State.put_other _ _ _ _ here, State.put_other _ _ _ _ here]
      exact projects.sessions u
  log := projects.log
  within u o open_ := by
    by_cases here : u = t
    · subst here
      rw [State.put_self] at open_
      exact within o open_
    · rw [State.put_other _ _ _ _ here] at open_
      exact projects.within u o open_

theorem put_own (projects : Projects kind mine ours same s s') (t : Nat)
    {o : Session C S R W K E A} (within : o.Within kind mine ours) (is : kind o.call = true) :
    Projects kind mine ours same (s.put t (some o)) (s'.put t (some o)) := by
  have moved := projects.put t (some o) (by rintro _ ⟨⟩; exact within)
  rwa [Option.filter_some, if_pos is] at moved

/-- Replacing a session of the other kind leaves the projected run alone. -/
theorem put_other (projects : Projects kind mine ours same s s') (t : Nat)
    (new : Option (Session C S R W K E A)) (within : ∀ o, new = some o → o.Within kind mine ours)
    (old : (s.sessions t).filter (fun o => kind o.call) = none)
    (other : new.filter (fun o => kind o.call) = none) :
    Projects kind mine ours same (s.put t new) s' := by
  have moved := projects.put t new within
  refine ⟨moved.db, ?_, moved.log, moved.within⟩
  intro u
  by_cases here : u = t
  · subst here
    rw [State.put_self, other, projects.sessions, old]
  · rw [State.put_other _ _ _ _ here]
    exact projects.sessions u

/-- A transaction of the kind ends in both runs, with the same event. -/
theorem ends (projects : Projects kind mine ours same s s') (t : Nat) {d d' : D}
    (related : same d d') {e e' : Event C S R D E A} (told : e'.reply = e.reply)
    (is : ∀ reply, e.reply = some reply → kind reply.1 = true) :
    Projects kind mine ours same { s.put t none with db := d, log := s.log ++ [e] }
      { s'.put t none with db := d', log := s'.log ++ [e'] } := by
  have moved := projects.put t none (by simp)
  refine ⟨related, moved.sessions, ?_, moved.within⟩
  have kept : e.reply.toList.filter (fun reply => kind reply.1) = e.reply.toList := by
    rw [List.filter_eq_self]
    intro reply member
    exact is reply (Option.mem_toList.mp member)
  rw [replies_snoc, replies_snoc, List.filter_append, ← projects.log, told, kept]

/-- A transaction of the other kind ends, and the projected run does not move. -/
theorem ends_other (projects : Projects kind mine ours same s s') {t : Nat}
    {o : Session C S R W K E A} (open_ : s.sessions t = some o) (other : ¬kind o.call = true)
    {d : D} (related : same d s'.db) {e : Event C S R D E A}
    (is : ∀ reply, e.reply = some reply → ¬kind reply.1 = true) :
    Projects kind mine ours same { s.put t none with db := d, log := s.log ++ [e] } s' := by
  have old : (s.sessions t).filter (fun o => kind o.call) = none := by
    rw [open_, Option.filter_some, if_neg other]
  have moved := projects.put_other t none (by simp) old rfl
  refine ⟨related, moved.sessions, ?_, moved.within⟩
  have dropped : e.reply.toList.filter (fun reply => kind reply.1) = [] := by
    rw [List.filter_eq_nil_iff]
    intro reply member
    exact is reply (Option.mem_toList.mp member)
  rw [replies_snoc, List.filter_append, dropped, List.append_nil]
  exact projects.log

/-- One step of the full run is a step of the projected run, or none. -/
theorem step (split : Split eng env env' mine ours same)
    (bodies : ∀ c, (body c).All fun q => mine q ↔ kind c = true)
    (projects : Projects kind mine ours same s s') {s₂ : State C D S R W K E A}
    (step : Step eng body env s s₂) :
    ∃ s₂', Relation.ReflTransGen (Step eng body env') s' s₂' ∧
      Projects kind mine ours same s₂ s₂' := by
  cases step with
  | begin t c idle =>
    have idle' : s'.sessions t = none := by rw [projects.sessions, idle]; rfl
    have fresh : (Session.fresh body c : Session C S R W K E A).Within kind mine ours :=
      ⟨bodies c, nofun⟩
    by_cases is : kind c = true
    · exact ⟨_, .single (.begin t c idle'), projects.put_own t fresh is⟩
    · refine ⟨s', .refl, projects.put_other t _ (by rintro _ ⟨⟩; exact fresh) ?_ ?_⟩
      · rw [idle]; rfl
      · rw [Option.filter_some]; exact if_neg is
  | @statement t o q next r ws running point free done =>
    obtain ⟨rest, pending⟩ := projects.within t o running
    rw [point] at rest
    cases rest with
    | exec here later =>
      have within : (o.advance q r next ws (eng.locks q (eng.view o s.db))).Within kind mine
          ours := by
        refine ⟨later r, ?_⟩
        intro w member
        rcases List.mem_append.mp member with old | new
        · exact pending w old
        · exact (split.writes done w new).trans here
      by_cases is : kind o.call = true
      -- on its own part of the state the statement sees what it saw in the full run
      · have related : same (eng.view o s.db) (eng.view o s'.db) :=
          split.keptAll (fun w member => (pending w member).mpr is) projects.db
        have locks := split.locks (here.mpr is) related
        refine ⟨_, .single ?_, projects.put_own t within is⟩
        rw [← locks]
        refine .statement t (projects.running running is) point ?_ ?_
        · rw [locks]
          exact fun k taken => projects.free (free k taken)
        · rw [split.exec (here.mpr is) related]
          exact done
      · refine ⟨s', .refl, projects.put_other t _ (by rintro _ ⟨⟩; exact within) ?_ ?_⟩
        · rw [running, Option.filter_some, if_neg is]
        · rw [Option.filter_some]; exact if_neg is
  | @fail t o q next e running point free failed =>
    obtain ⟨rest, pending⟩ := projects.within t o running
    rw [point] at rest
    cases rest with
    | exec here later =>
      by_cases is : kind o.call = true
      · have related : same (eng.view o s.db) (eng.view o s'.db) :=
          split.keptAll (fun w member => (pending w member).mpr is) projects.db
        refine ⟨_, .single (.fail t (projects.running running is) point ?_ ?_),
          projects.ends t projects.db rfl ?_⟩
        · rw [split.locks (here.mpr is) related]
          exact fun k taken => projects.free (free k taken)
        · rw [split.exec (here.mpr is) related]
          exact failed
        · rintro _ ⟨⟩
          exact is
      · refine ⟨s', .refl, projects.ends_other running is projects.db ?_⟩
        rintro _ ⟨⟩
        exact is
  | @raise t o e running point =>
    by_cases is : kind o.call = true
    · refine ⟨_, .single (.raise t (projects.running running is) point),
        projects.ends t projects.db rfl ?_⟩
      rintro _ ⟨⟩
      exact is
    · refine ⟨s', .refl, projects.ends_other running is projects.db ?_⟩
      rintro _ ⟨⟩
      exact is
  | @commit t o a running point =>
    obtain ⟨_, pending⟩ := projects.within t o running
    by_cases is : kind o.call = true
    · have related : same (eng.view o s.db) (eng.view o s'.db) :=
        split.keptAll (fun w member => (pending w member).mpr is) projects.db
      refine ⟨_, .single (.commit t (projects.running running is) point),
        projects.ends t related rfl ?_⟩
      rintro _ ⟨⟩
      exact is
    -- the commit of the other kind writes nothing that the projected run has
    · have related : same (eng.view o s.db) s'.db :=
        split.sparedAll (fun w member => fun our => is ((pending w member).mp our)) projects.db
      refine ⟨s', .refl, projects.ends_other running is related ?_⟩
      rintro _ ⟨⟩
      exact is
  | @abort t o running =>
    by_cases is : kind o.call = true
    · exact ⟨_, .single (.abort t (projects.running running is)), projects.put t none (by simp)⟩
    · refine ⟨s', .refl, projects.put_other t none (by simp) ?_ rfl⟩
      rw [running, Option.filter_some, if_neg is]
  | @outside d allowed =>
    obtain ⟨db, sessions, log, within⟩ := projects
    have silent : replies (s.log ++ [.outside s.db d]) = replies s.log := by
      rw [replies_snoc]
      exact List.append_nil _
    rcases split.outside allowed
        (fun k held => Projects.held ⟨db, sessions, log, within⟩ held) db with unseen | mirrored
    · exact ⟨s', .refl, unseen, sessions, by rw [silent]; exact log, within⟩
    · obtain ⟨d', allowed', related⟩ := mirrored
      refine ⟨_, .single (.outside allowed'), related, sessions, ?_, within⟩
      rw [silent, replies_snoc]
      exact (List.append_nil _).trans log

end Projects

/-- The projection rule: without the calls of the other kind there is a run to the same
part of the state, with the same transactions open and the same replies. -/
theorem Reachable.project (split : Split eng env env' mine ours same)
    (bodies : ∀ c, (body c).All fun q => mine q ↔ kind c = true) {d d' : D} (start : same d d')
    (reached : Reachable eng body env d s) :
    ∃ s', Reachable eng body env' d' s' ∧ Projects kind mine ours same s s' := by
  induction reached with
  | refl => exact ⟨.start d', .refl, start, fun _ => rfl, rfl, nofun⟩
  | tail _ step ih =>
    obtain ⟨s', reached', projects⟩ := ih
    obtain ⟨s₂', steps, projects₂⟩ := projects.step split bodies step
    exact ⟨s₂', reached'.trans steps, projects₂⟩

end Projection

end Foundations
