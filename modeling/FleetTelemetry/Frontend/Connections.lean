import FleetTelemetry.Frontend.Socket
import Mathlib.Data.Finset.Card

/-!
# Who is registered

The set that the gauge of active connections observes. An execution of `ws_endpoint` adds
its connection once and removes it at its end; a broadcast removes the connections whose
sends raised, and their executions go on without them.
-/

namespace FleetTelemetry.Frontend

open Foundations

namespace Phase

/-- The execution has added its connection. -/
def begun : Phase → Bool
  | connecting | accepted => false
  | registered | fleetRead _ | built _ | streaming | closing | closed => true

/-- It has added its connection and not yet removed it. -/
def live : Phase → Bool
  | registered | fleetRead _ | built _ | streaming | closing => true
  | connecting | accepted | closed => false

theorem begun_of_live {phase : Phase} (live : phase.live = true) : phase.begun = true := by
  cases phase <;> first | rfl | cases live

end Phase

/-- The gauge: `size` of the registry, which the callback yields. -/
def Registry.size {C M : Type} (r : Registry C M) : Nat := r.connections.card

def deltas (frames : List Frame) : List String :=
  frames.filterMap fun
    | .snapshot _ => none
    | .delta message => some message

theorem deltas_append (earlier later : List Frame) :
    deltas (earlier ++ later) = deltas earlier ++ deltas later :=
  List.filterMap_append

variable {C : Type}

/-- The connections whose sends raised, in the broadcast in progress and in the ended ones. -/
structure Losses (C : Type) where
  failing : List C
  dropped : List C

def Losses.step (l : Losses C) : Step C → Losses C
  | .raised ws => { l with failing := l.failing ++ [ws] }
  | .ended => ⟨[], l.dropped ++ l.failing⟩
  | _ => l

def losses (steps : List (Step C)) : Losses C := steps.foldl Losses.step ⟨[], []⟩

/-- The connections in the order of their `add`. -/
def added (steps : List (Step C)) : List C :=
  steps.filterMap fun
    | .register ws => some ws
    | _ => none

theorem losses_snoc (steps : List (Step C)) (a : Step C) :
    losses (steps ++ [a]) = (losses steps).step a := by
  rw [losses, List.foldl_append]
  rfl

namespace Server

variable [DecidableEq C]

/-- An execution goes on between its `add` and its `remove`. -/
structure Proceeds (s s' : Server C) (ws : C) : Prop where
  live : (s.phase ws).live = true
  phase : ∃ phase : Phase, phase.live = true ∧ s'.phase = Function.update s.phase ws phase
  connections : s'.registry.connections = s.registry.connections
  current : s'.registry.current = s.registry.current
  deltas : ∀ c, deltas (s'.registry.received c) = deltas (s.registry.received c)

theorem proceeds_goto (s : Server C) {ws : C} (live : (s.phase ws).live = true) {phase : Phase}
    (still : phase.live = true) : s.Proceeds (s.goto ws phase) ws where
  live := live
  phase := ⟨phase, still, rfl⟩
  connections := rfl
  current := rfl
  deltas _ := rfl

theorem proceeds_snapshot (s : Server C) {ws : C} (live : (s.phase ws).live = true)
    (payload : Snapshot) :
    s.Proceeds ({ s with registry := s.registry.deliver ws (.snapshot payload) }.goto ws
      .streaming) ws where
  live := live
  phase := ⟨.streaming, rfl, rfl⟩
  connections := rfl
  current := rfl
  deltas c := by
    simp only [goto, Registry.received_deliver]
    split
    next same => simp [same, Frontend.deltas]
    · rfl

/-- What a performed step was performed on and left. -/
theorem step_cases {s s' : Server C} {a : Step C} (performed : s.step a = some s') :
    match a with
    | .accept ws => s.phase ws = .connecting ∧ s' = s.goto ws .accepted
    | .register ws => s.phase ws = .accepted ∧
        s' = ⟨{ s.registry with connections := insert ws s.registry.connections },
          Function.update s.phase ws .registered⟩
    | .unregister ws => s.phase ws = .closing ∧
        s' = ⟨{ s.registry with connections := s.registry.connections.erase ws },
          Function.update s.phase ws .closed⟩
    | .readFleet ws _ | .readZones ws _ | .sendSnapshot ws | .fail ws | .disconnect ws =>
        s.Proceeds s' ws
    | .broadcast message targets => s.fanOut (.broadcast (.delta message) targets) = some s'
    | .sent ws => s.fanOut (.sent ws) = some s'
    | .raised ws => s.fanOut (.raised ws) = some s'
    | .ended => s.fanOut .ended = some s' := by
  cases a with
  -- a phase of its own for each of these three
  | accept ws =>
    simp only [step] at performed
    split at performed
    next phase => exact ⟨phase, (Option.some.inj performed).symm⟩
    · cases performed
  | register ws =>
    simp only [step] at performed
    split at performed
    next phase => exact ⟨phase, (Option.some.inj performed).symm⟩
    · cases performed
  | unregister ws =>
    simp only [step] at performed
    split at performed
    next phase => exact ⟨phase, (Option.some.inj performed).symm⟩
    · cases performed
  -- from here on the registry keeps its members, whatever the execution does
  | readFleet ws replica =>
    simp only [step] at performed
    split at performed
    next phase =>
      cases performed
      exact s.proceeds_goto (by rw [phase]; rfl) rfl
    · cases performed
  | readZones ws replica =>
    simp only [step] at performed
    split at performed
    next fleet phase =>
      cases performed
      exact s.proceeds_goto (by rw [phase]; rfl) rfl
    · cases performed
  | sendSnapshot ws =>
    simp only [step] at performed
    split at performed
    next payload phase =>
      cases performed
      exact s.proceeds_snapshot (by rw [phase]; rfl) payload
    · cases performed
  -- it may raise at each await of the endpoint before the stream
  | fail ws =>
    simp only [step] at performed
    split at performed
    any_goals
      cases performed
    all_goals
      next phase => exact s.proceeds_goto (by rw [phase]; rfl) rfl
  | disconnect ws =>
    simp only [step] at performed
    split at performed
    next phase =>
      cases performed
      exact s.proceeds_goto (by rw [phase]; rfl) rfl
    · cases performed
  -- the steps of the subscriber are steps of the registry
  | broadcast message targets => exact performed
  | sent ws => exact performed
  | raised ws => exact performed
  | ended => exact performed

theorem Proceeds.alike {s s' : Server C} {ws : C} (proceeds : s.Proceeds s' ws) (c : C) :
    (s'.phase c).live = (s.phase c).live ∧ (s'.phase c).begun = (s.phase c).begun := by
  obtain ⟨phase, live, moved⟩ := proceeds.phase
  rw [moved]
  by_cases same : c = ws
  · subst same
    simp [live, proceeds.live, Phase.begun_of_live live, Phase.begun_of_live proceeds.live]
  · simp [same]

/-- What the registry holds after the steps. -/
structure Accounted (steps : List (Step C)) (s : Server C) : Prop where
  connections : ∀ c, c ∈ s.registry.connections ↔
    (s.phase c).live = true ∧ c ∉ (losses steps).dropped
  added : ∀ c, c ∈ added steps ↔ (s.phase c).begun = true
  once : (Frontend.added steps).Nodup
  idle : s.registry.current = none → (losses steps).failing = []
  running : ∀ b, s.registry.current = some b → b.dead = (losses steps).failing ∧
    ∀ c ∈ b.targets, (s.phase c).begun = true ∧ c ∉ (losses steps).dropped
  begun : ∀ c ∈ (losses steps).dropped ++ (losses steps).failing, (s.phase c).begun = true

namespace Accounted

variable {steps : List (Step C)} {s s' : Server C}

omit [DecidableEq C] in
theorem started : Accounted [] (Server.started : Server C) where
  connections c := by simp [Server.started, Registry.empty, Phase.live]
  added c := by simp [Frontend.added, Server.started, Phase.begun]
  once := List.nodup_nil
  idle _ := rfl
  running _ impossible := by cases impossible
  begun c impossible := by cases impossible

omit [DecidableEq C] in
/-- A step that leaves the registry, the losses and the standing of every execution. -/
theorem unmoved (accounted : Accounted steps s) {a : Step C}
    (lossless : (losses steps).step a = losses steps)
    (nothing : Frontend.added [a] = [])
    (phases : ∀ c, (s'.phase c).live = (s.phase c).live ∧ (s'.phase c).begun = (s.phase c).begun)
    (connections : s'.registry.connections = s.registry.connections)
    (current : s'.registry.current = s.registry.current) : Accounted (steps ++ [a]) s' := by
  have losses_eq : losses (steps ++ [a]) = losses steps := by rw [losses_snoc, lossless]
  have added_eq : Frontend.added (steps ++ [a]) = Frontend.added steps := by
    rw [Frontend.added, List.filterMap_append]
    exact (congrArg (Frontend.added steps ++ ·) nothing).trans (List.append_nil _)
  constructor
  -- nothing the account speaks of has changed, so it is rewritten part by part
  · intro c
    rw [connections, losses_eq, (phases c).1]
    exact accounted.connections c
  · intro c
    rw [added_eq, (phases c).2]
    exact accounted.added c
  · rw [added_eq]
    exact accounted.once
  · rw [current, losses_eq]
    exact accounted.idle
  · rw [current, losses_eq]
    intro b running
    obtain ⟨dead, targets⟩ := accounted.running b running
    refine ⟨dead, fun c target => ?_⟩
    rw [(phases c).2]
    exact targets c target
  · intro c lost
    rw [losses_eq] at lost
    rw [(phases c).2]
    exact accounted.begun c lost

theorem accept (accounted : Accounted steps s) {ws : C} (connecting : s.phase ws = .connecting) :
    Accounted (steps ++ [.accept ws]) (s.goto ws .accepted) := by
  refine accounted.unmoved rfl rfl ?_ rfl rfl
  intro c
  by_cases same : c = ws
  · subst same
    simp [goto, connecting, Phase.live, Phase.begun]
  · simp [goto, same]

/-- A connection is added when nothing has been sent to it and nothing lost. -/
theorem register (accounted : Accounted steps s) {ws : C} (accepted : s.phase ws = .accepted) :
    Accounted (steps ++ [.register ws])
      ⟨{ s.registry with connections := insert ws s.registry.connections },
        Function.update s.phase ws .registered⟩ := by
  -- an accepted connection has not begun, so it is in none of the lists yet
  have early : (s.phase ws).begun = false := by rw [accepted]; rfl
  have losses_eq : losses (steps ++ [.register ws]) = losses steps := losses_snoc steps _
  have added_eq : Frontend.added (steps ++ [.register ws]) = Frontend.added steps ++ [ws] := by
    simp [Frontend.added]
  have fresh : ws ∉ Frontend.added steps := by simp [accounted.added, early]
  have kept : ws ∉ (losses steps).dropped := by
    intro lost
    have begun := accounted.begun ws (List.mem_append_left _ lost)
    simp [early] at begun
  constructor
  · intro c
    rw [losses_eq, Finset.mem_insert, accounted.connections]
    by_cases same : c = ws
    · subst same
      simp [kept, Phase.live]
    · simp [same]
  · intro c
    rw [added_eq, List.mem_append, List.mem_singleton, accounted.added]
    by_cases same : c = ws
    · subst same
      simp [Phase.begun]
    · simp [same]
  · rw [added_eq, List.nodup_append]
    refine ⟨accounted.once, by simp, fun c member => ?_⟩
    simp only [List.mem_singleton, forall_eq]
    rintro rfl
    exact fresh member
  -- it joins no running broadcast, whose targets were copied before
  · rw [losses_eq]
    exact accounted.idle
  · rw [losses_eq]
    intro b running
    obtain ⟨dead, targets⟩ := accounted.running b running
    refine ⟨dead, fun c target => ?_⟩
    obtain ⟨begun, present⟩ := targets c target
    have apart : c ≠ ws := by
      rintro rfl
      simp [early] at begun
    exact ⟨by simpa [apart] using begun, present⟩
  · intro c lost
    rw [losses_eq] at lost
    have begun := accounted.begun c lost
    have apart : c ≠ ws := by
      rintro rfl
      simp [early] at begun
    simpa [apart] using begun

theorem unregister (accounted : Accounted steps s) {ws : C} (closing : s.phase ws = .closing) :
    Accounted (steps ++ [.unregister ws])
      ⟨{ s.registry with connections := s.registry.connections.erase ws },
        Function.update s.phase ws .closed⟩ := by
  have losses_eq : losses (steps ++ [.unregister ws]) = losses steps := losses_snoc steps _
  have added_eq : Frontend.added (steps ++ [.unregister ws]) = Frontend.added steps := by
    simp [Frontend.added]
  -- a closed execution has begun, as it had before
  have begun_eq : ∀ c, (Function.update s.phase ws .closed c).begun = (s.phase c).begun := by
    intro c
    by_cases same : c = ws
    · subst same
      simp [closing, Phase.begun]
    · simp [same]
  constructor
  · intro c
    rw [losses_eq, Finset.mem_erase, accounted.connections]
    by_cases same : c = ws
    · subst same
      simp [Phase.live]
    · simp [same]
  · intro c
    rw [added_eq, begun_eq]
    exact accounted.added c
  · rw [added_eq]
    exact accounted.once
  · rw [losses_eq]
    exact accounted.idle
  · rw [losses_eq]
    intro b running
    obtain ⟨dead, targets⟩ := accounted.running b running
    refine ⟨dead, fun c target => ?_⟩
    rw [begun_eq]
    exact targets c target
  · intro c lost
    rw [losses_eq] at lost
    rw [begun_eq]
    exact accounted.begun c lost

omit [DecidableEq C] in
/-- A step of a broadcast that goes on: connections stay, and failures may have grown. -/
theorem sending (accounted : Accounted steps s) {a : Step C} {failing : List C}
    (lost : (losses steps).step a = ⟨failing, (losses steps).dropped⟩)
    (nothing : Frontend.added [a] = []) {b : Broadcast C Frame} (dead : b.dead = failing)
    (targets : ∀ c ∈ b.targets, (s.phase c).begun = true ∧ c ∉ (losses steps).dropped)
    (begun : ∀ c ∈ failing, (s.phase c).begun = true) (received : C → List Frame) :
    Accounted (steps ++ [a]) ⟨⟨s.registry.connections, some b, received⟩, s.phase⟩ := by
  have losses_eq : losses (steps ++ [a]) = ⟨failing, (losses steps).dropped⟩ := by
    rw [losses_snoc, lost]
  have added_eq : Frontend.added (steps ++ [a]) = Frontend.added steps := by
    rw [Frontend.added, List.filterMap_append]
    exact (congrArg (Frontend.added steps ++ ·) nothing).trans (List.append_nil _)
  constructor
  · rw [losses_eq]
    exact accounted.connections
  · rw [added_eq]
    exact accounted.added
  · rw [added_eq]
    exact accounted.once
  -- the broadcast goes on, so the registry is not idle
  · intro impossible
    cases impossible
  · rintro _ ⟨rfl⟩
    rw [losses_eq]
    exact ⟨dead, targets⟩
  · rw [losses_eq]
    intro c gone
    rcases List.mem_append.mp gone with dropped | failed
    · exact accounted.begun c (List.mem_append_left _ dropped)
    · exact begun c failed

omit [DecidableEq C] in
theorem begun_failing (accounted : Accounted steps s) (c : C)
    (failed : c ∈ (losses steps).failing) : (s.phase c).begun = true :=
  accounted.begun c (List.mem_append_right _ failed)

theorem broadcast (accounted : Accounted steps s) {message : String} {targets : List C}
    (copy : targets.toFinset = s.registry.connections) (idle : s.registry.current = none) :
    Accounted (steps ++ [.broadcast message targets])
      ⟨{ s.registry with current := some ⟨.delta message, targets, []⟩ }, s.phase⟩ := by
  refine accounted.sending rfl rfl (accounted.idle idle).symm ?_ accounted.begun_failing _
  intro c target
  -- a target is registered, so it has begun and was never dropped
  have registered : c ∈ s.registry.connections := by
    rw [← copy]
    exact List.mem_toFinset.mpr target
  obtain ⟨live, present⟩ := (accounted.connections c).mp registered
  exact ⟨Phase.begun_of_live live, present⟩

theorem sent (accounted : Accounted steps s) {ws : C} {message : Frame} {rest dead : List C}
    (running : s.registry.current = some ⟨message, ws :: rest, dead⟩) :
    Accounted (steps ++ [.sent ws]) ⟨{ s.registry.deliver ws message with
      current := some ⟨message, rest, dead⟩ }, s.phase⟩ := by
  obtain ⟨same, targets⟩ := accounted.running _ running
  refine accounted.sending (b := ⟨message, rest, dead⟩) rfl rfl same ?_
    accounted.begun_failing _
  exact fun c target => targets c (List.mem_cons_of_mem _ target)

omit [DecidableEq C] in
theorem raised (accounted : Accounted steps s) {ws : C} {message : Frame} {rest dead : List C}
    (running : s.registry.current = some ⟨message, ws :: rest, dead⟩) :
    Accounted (steps ++ [.raised ws])
      ⟨{ s.registry with current := some ⟨message, rest, dead ++ [ws]⟩ }, s.phase⟩ := by
  obtain ⟨same, targets⟩ := accounted.running _ running
  refine accounted.sending rfl rfl (congrArg (· ++ [ws]) same) ?_ ?_ _
  · exact fun c target => targets c (List.mem_cons_of_mem _ target)
  · intro c failed
    rcases List.mem_append.mp failed with before | last
    · exact accounted.begun_failing c before
    · rw [List.mem_singleton.mp last]
      exact (targets ws List.mem_cons_self).1

theorem ended (accounted : Accounted steps s) {message : Frame} {dead : List C}
    (running : s.registry.current = some ⟨message, [], dead⟩) :
    Accounted (steps ++ [.ended]) ⟨{ s.registry with
      connections := s.registry.connections \ dead.toFinset, current := none }, s.phase⟩ := by
  have losses_eq : losses (steps ++ [.ended]) =
      ⟨[], (losses steps).dropped ++ (losses steps).failing⟩ := losses_snoc steps _
  have added_eq : Frontend.added (steps ++ [.ended]) = Frontend.added steps := by
    simp [Frontend.added]
  obtain ⟨rfl, _⟩ := accounted.running _ running
  constructor
  -- the failing connections are dropped now, and leave the registry together
  · intro c
    rw [losses_eq, Finset.mem_sdiff, accounted.connections, List.mem_toFinset, List.mem_append,
      not_or, and_assoc]
  · rw [added_eq]
    exact accounted.added
  · rw [added_eq]
    exact accounted.once
  · rw [losses_eq]
    exact fun _ => rfl
  · intro b impossible
    cases impossible
  · rw [losses_eq, List.append_nil]
    exact accounted.begun

theorem step (accounted : Accounted steps s) {a : Step C} (performed : s.step a = some s') :
    Accounted (steps ++ [a]) s' := by
  have effect := step_cases performed
  cases a with
  | accept ws =>
    obtain ⟨connecting, rfl⟩ := effect
    exact accounted.accept connecting
  | register ws =>
    obtain ⟨accepted, rfl⟩ := effect
    exact accounted.register accepted
  | unregister ws =>
    obtain ⟨closing, rfl⟩ := effect
    exact accounted.unregister closing
  -- an execution that goes on moves neither the registry nor its own standing
  | readFleet ws replica =>
    exact accounted.unmoved rfl rfl effect.alike effect.connections effect.current
  | readZones ws replica =>
    exact accounted.unmoved rfl rfl effect.alike effect.connections effect.current
  | sendSnapshot ws =>
    exact accounted.unmoved rfl rfl effect.alike effect.connections effect.current
  | fail ws => exact accounted.unmoved rfl rfl effect.alike effect.connections effect.current
  | disconnect ws =>
    exact accounted.unmoved rfl rfl effect.alike effect.connections effect.current
  | broadcast message targets =>
    obtain ⟨registry, stepped, rfl⟩ := Option.map_eq_some_iff.mp effect
    obtain ⟨idle, _, copy, rfl⟩ := Registry.step_cases stepped
    exact accounted.broadcast copy idle
  | sent ws =>
    obtain ⟨registry, stepped, rfl⟩ := Option.map_eq_some_iff.mp effect
    obtain ⟨message, rest, dead, running, rfl⟩ := Registry.step_cases stepped
    exact accounted.sent running
  | raised ws =>
    obtain ⟨registry, stepped, rfl⟩ := Option.map_eq_some_iff.mp effect
    obtain ⟨message, rest, dead, running, rfl⟩ := Registry.step_cases stepped
    exact accounted.raised running
  | ended =>
    obtain ⟨registry, stepped, rfl⟩ := Option.map_eq_some_iff.mp effect
    obtain ⟨message, dead, running, rfl⟩ := Registry.step_cases stepped
    exact accounted.ended running

end Accounted

theorem accounted_run {steps : List (Step C)} {s : Server C}
    (reached : Machine.run step started steps = some s) : Accounted steps s :=
  Machine.run_invariant .started (fun _ _ _ _ accounted performed => accounted.step performed)
    reached

/-- In every run the registry holds the connections that were added, not removed by their own
executions and not dropped by a broadcast, and the gauge counts each of them once. -/
theorem size_exact (steps : List (Step C)) (s : Server C)
    (reached : Machine.run step started steps = some s) :
    (∀ ws, ws ∈ s.registry.connections ↔
      (s.phase ws).live = true ∧ ws ∉ (losses steps).dropped) ∧
    s.registry.size = (added steps).countP fun ws =>
      (s.phase ws).live && decide (ws ∉ (losses steps).dropped) := by
  have accounted := accounted_run reached
  refine ⟨accounted.connections, ?_⟩
  -- each execution is added once, so counting them counts members
  have listed : s.registry.connections = ((added steps).filter fun ws =>
      (s.phase ws).live && decide (ws ∉ (losses steps).dropped)).toFinset := by
    ext ws
    simp only [List.mem_toFinset, List.mem_filter, Bool.and_eq_true, decide_eq_true_eq,
      accounted.connections, accounted.added]
    exact ⟨fun held => ⟨Phase.begun_of_live held.1, held⟩, And.right⟩
  rw [Registry.size, listed, List.toFinset_card_of_nodup (accounted.once.filter _),
    List.countP_eq_length_filter]

/-- The deltas that a client has been sent and those the running broadcast still owes it. -/
def streamed (s : Server C) (ws : C) : List String :=
  deltas (s.registry.received ws ++ s.registry.owed ws)

/-- The client was registered and is so no more. -/
structure Absent (s : Server C) (ws : C) : Prop where
  begun : (s.phase ws).begun = true
  unregistered : ws ∉ s.registry.connections

theorem Proceeds.absent {s s' : Server C} {ws : C} (proceeds : s.Proceeds s' ws) {c : C}
    (absent : s.Absent c) : s'.Absent c ∧ s'.streamed c = s.streamed c := by
  refine ⟨⟨?_, ?_⟩, ?_⟩
  · rw [(proceeds.alike c).2]
    exact absent.begun
  · rw [proceeds.connections]
    exact absent.unregistered
  · rw [streamed, streamed, deltas_append, deltas_append, proceeds.deltas c, Registry.owed,
      proceeds.current, Registry.owed]

/-- A step of the registry extends what it sends to registered clients only. -/
theorem fanOut_absent {s s' : Server C} (proper : s.registry.Proper) {c : C} (absent : s.Absent c)
    {a : Action C Frame} (other : ∀ ws, a ≠ .add ws) (performed : s.fanOut a = some s') :
    s'.Absent c ∧ s'.streamed c <+: s.streamed c := by
  obtain ⟨registry, stepped, rfl⟩ := Option.map_eq_some_iff.mp performed
  have effect := Registry.step_cases stepped
  cases a with
  | add ws => exact (other ws rfl).elim
  | remove ws =>
    obtain rfl : registry = _ := effect
    exact ⟨⟨absent.begun, fun held => absent.unregistered (Finset.mem_of_mem_erase held)⟩,
      List.prefix_rfl⟩
  | broadcast message targets =>
    obtain ⟨idle, _, copy, rfl⟩ := effect
    have untargeted : c ∉ targets := by
      intro target
      apply absent.unregistered
      rw [← copy]
      exact List.mem_toFinset.mpr target
    refine ⟨⟨absent.begun, absent.unregistered⟩, ?_⟩
    simp [streamed, Registry.owed, idle, untargeted]
  | sent ws =>
    obtain ⟨message, rest, dead, running, rfl⟩ := effect
    refine ⟨⟨absent.begun, absent.unregistered⟩, ?_⟩
    -- what is owed becomes received: a client is a target once, so it is owed nothing after
    have once := (List.nodup_cons.mp (proper _ running)).1
    by_cases same : c = ws
    · subst same
      simp [streamed, Registry.owed, running, once, Registry.received_deliver]
    · simp [streamed, Registry.owed, running, same, Registry.received_deliver]
  | raised ws =>
    obtain ⟨message, rest, dead, running, rfl⟩ := effect
    refine ⟨⟨absent.begun, absent.unregistered⟩, ?_⟩
    have once := (List.nodup_cons.mp (proper _ running)).1
    by_cases same : c = ws
    · subst same
      simp [streamed, Registry.owed, running, once, deltas, List.filterMap_append]
    · simp [streamed, Registry.owed, running, same]
  | ended =>
    obtain ⟨message, dead, running, rfl⟩ := effect
    refine ⟨⟨absent.begun, fun held => absent.unregistered (Finset.mem_sdiff.mp held).1⟩, ?_⟩
    simp [streamed, Registry.owed, running]

theorem step_absent {s s' : Server C} (proper : s.registry.Proper) {c : C} (absent : s.Absent c)
    {a : Step C} (performed : s.step a = some s') :
    s'.Absent c ∧ s'.streamed c <+: s.streamed c := by
  have effect := step_cases performed
  cases a with
  -- an execution that begins is not one that is gone
  | accept ws =>
    obtain ⟨connecting, rfl⟩ := effect
    have apart : c ≠ ws := by
      rintro rfl
      have begun := absent.begun
      simp [connecting, Phase.begun] at begun
    exact ⟨⟨by simpa [goto, apart] using absent.begun, absent.unregistered⟩, List.prefix_rfl⟩
  | register ws =>
    obtain ⟨accepted, rfl⟩ := effect
    have apart : c ≠ ws := by
      rintro rfl
      have begun := absent.begun
      simp [accepted, Phase.begun] at begun
    refine ⟨⟨by simpa [apart] using absent.begun, ?_⟩, List.prefix_rfl⟩
    simpa [apart] using absent.unregistered
  | unregister ws =>
    obtain ⟨closing, rfl⟩ := effect
    refine ⟨⟨?_, fun held => absent.unregistered (Finset.mem_of_mem_erase held)⟩,
      List.prefix_rfl⟩
    by_cases same : c = ws
    · subst same
      simp [Phase.begun]
    · simpa [same] using absent.begun
  -- the other executions send to themselves, and no delta
  | readFleet ws replica | readZones ws replica | sendSnapshot ws | fail ws | disconnect ws =>
    obtain ⟨still, same⟩ := effect.absent absent
    exact ⟨still, same ▸ List.prefix_rfl⟩
  | broadcast message targets => exact fanOut_absent proper absent (by simp) effect
  | sent ws => exact fanOut_absent proper absent (by simp) effect
  | raised ws => exact fanOut_absent proper absent (by simp) effect
  | ended => exact fanOut_absent proper absent (by simp) effect

omit [DecidableEq C] in
theorem proper_same {s s' : Server C} (same : s'.registry.current = s.registry.current)
    (proper : s.registry.Proper) : s'.registry.Proper := by
  intro b running
  rw [same] at running
  exact proper b running

theorem step_proper {s s' : Server C} {a : Step C} (performed : s.step a = some s')
    (proper : s.registry.Proper) : s'.registry.Proper := by
  have effect := step_cases performed
  have fanOut {a : Action C Frame} (performed : s.fanOut a = some s') : s'.registry.Proper := by
    obtain ⟨registry, stepped, rfl⟩ := Option.map_eq_some_iff.mp performed
    exact Registry.step_proper stepped proper
  cases a with
  | accept ws | register ws | unregister ws =>
    obtain ⟨_, rfl⟩ := effect
    exact proper
  | readFleet ws replica | readZones ws replica | sendSnapshot ws | fail ws | disconnect ws =>
    exact proper_same effect.current proper
  | broadcast message targets | sent ws | raised ws | ended => exact fanOut effect

theorem run_proper {steps : List (Step C)} {s s' : Server C}
    (continued : Machine.run step s steps = some s') (proper : s.registry.Proper) :
    s'.registry.Proper :=
  Machine.run_invariant (P := fun _ s => s.registry.Proper) proper
    (fun _ _ _ _ proper performed => step_proper performed proper) continued

theorem run_absent {later : List (Step C)} {s s' : Server C}
    (continued : Machine.run step s later = some s') (proper : s.registry.Proper) {c : C}
    (absent : s.Absent c) : s'.Absent c ∧ s'.streamed c <+: s.streamed c := by
  refine (Machine.run_invariant (P := fun _ s' =>
    s'.registry.Proper ∧ s'.Absent c ∧ s'.streamed c <+: s.streamed c) ?_ ?_ continued).2
  · exact ⟨proper, absent, List.prefix_rfl⟩
  · rintro _ a mid s' ⟨proper, absent, sofar⟩ performed
    obtain ⟨still, next⟩ := step_absent proper absent performed
    exact ⟨step_proper performed proper, still, next.trans sofar⟩

/-- Once a broadcast has dropped a client or its execution is closed, no later broadcast
reaches it: in every continuation it is sent at most what the broadcast in progress still
owed it, and a dropped client is owed nothing. -/
theorem gone_silent (earlier later : List (Step C)) (s s' : Server C) (ws : C)
    (reached : Machine.run step started earlier = some s)
    (continued : Machine.run step s later = some s')
    (gone : ws ∈ (losses earlier).dropped ∨ s.phase ws = .closed) :
    s'.streamed ws <+: s.streamed ws ∧
      (ws ∈ (losses earlier).dropped → s.registry.owed ws = []) := by
  have accounted := accounted_run reached
  have absent : s.Absent ws := by
    -- it was dropped by a broadcast, or has removed itself
    rcases gone with dropped | closed
    · refine ⟨accounted.begun ws (List.mem_append_left _ dropped), fun held => ?_⟩
      exact ((accounted.connections ws).mp held).2 dropped
    · refine ⟨by rw [closed]; rfl, fun held => ?_⟩
      have live := ((accounted.connections ws).mp held).1
      simp [closed, Phase.live] at live
  have proper : s.registry.Proper := run_proper reached (Registry.proper_idle rfl)
  refine ⟨(run_absent continued proper absent).2, fun dropped => ?_⟩
  cases current : s.registry.current with
  | none => simp [Registry.owed, current]
  | some b =>
    have untargeted : ws ∉ b.targets :=
      fun target => ((accounted.running b current).2 ws target).2 dropped
    simp [Registry.owed, current, untargeted]

/-- A send to the first client fails while its snapshot is being built. -/
def lostEarly : List (Step Nat) :=
  [.accept 1, .register 1, .readFleet 1 .seeded, .broadcast "first" [1], .raised 1, .ended]

/-- The snapshot still arrives, and then only the second client is sent the delta. -/
def heldOpen : List (Step Nat) :=
  [.readZones 1 .seeded, .sendSnapshot 1, .accept 2, .register 2, .broadcast "second" [2],
    .sent 2, .ended]

theorem size_exact_lost : ∃ s : Server Nat,
    Machine.run step started (lostEarly ++ heldOpen) = some s ∧ s.registry.size = 1 ∧
      s.registry.size = (added (lostEarly ++ heldOpen)).countP fun ws =>
        (s.phase ws).live && decide (ws ∉ (losses (lostEarly ++ heldOpen)).dropped) := by
  have ⟨s, reached, one⟩ : ∃ s, Machine.run step started (lostEarly ++ heldOpen) = some s ∧
      s.registry.size = 1 := ⟨_, rfl, rfl⟩
  exact ⟨s, reached, one, (size_exact _ s reached).2⟩

theorem gone_silent_lost : ∃ s s' : Server Nat,
    Machine.run step started lostEarly = some s ∧ Machine.run step s heldOpen = some s' ∧
      (s'.registry.received 1).length = 1 ∧ s'.streamed 1 <+: s.streamed 1 := by
  have ⟨s, s', reached, continued, snapshot⟩ : ∃ s s' : Server Nat,
      Machine.run step started lostEarly = some s ∧ Machine.run step s heldOpen = some s' ∧
        (s'.registry.received 1).length = 1 := ⟨_, _, rfl, rfl, rfl⟩
  exact ⟨s, s', reached, continued, snapshot,
    (gone_silent lostEarly heldOpen s s' 1 reached continued (Or.inl (by decide))).1⟩

end Server

end FleetTelemetry.Frontend
