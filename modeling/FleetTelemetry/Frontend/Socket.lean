import FleetTelemetry.Frontend.Registry
import FleetTelemetry.Store.Persistence

/-!
# The WebSocket endpoint

Any number of `ws_endpoint` executions next to the broadcasts of the subscriber. An
execution registers its connection first and then awaits the two reads of the snapshot and
its send, so a broadcast may copy its targets in between.
-/

namespace FleetTelemetry.Frontend

open Foundations

/-- The payload of `_build_snapshot`. -/
structure Snapshot where
  fleet : OrdMap VehicleStatus Nat
  zones : OrdMap String Int

inductive Frame where
  | snapshot (payload : Snapshot)
  | delta (message : String)

def Frame.isSnapshot : Frame → Bool
  | snapshot _ => true
  | delta _ => false

/-- How far the execution of `ws_endpoint` for a connection is. -/
inductive Phase where
  | connecting
  | accepted
  | registered
  | fleetRead (fleet : OrdMap VehicleStatus Nat)
  | built (payload : Snapshot)
  | streaming
  | closing
  | closed

structure Server (C : Type) where
  registry : Registry C Frame
  phase : C → Phase

inductive Step (C : Type) where
  | accept (ws : C)
  | register (ws : C)
  | readFleet (ws : C) (replica : Db)
  | readZones (ws : C) (replica : Db)
  | sendSnapshot (ws : C)
  | fail (ws : C)
  | disconnect (ws : C)
  | unregister (ws : C)
  | broadcast (message : String) (targets : List C)
  | sent (ws : C)
  | raised (ws : C)
  | ended

namespace Server

variable {C : Type} [DecidableEq C]

def started : Server C := ⟨.empty, fun _ => .connecting⟩

def goto (s : Server C) (ws : C) (phase : Phase) : Server C :=
  { s with phase := Function.update s.phase ws phase }

/-- A step of the registry on its own. -/
def fanOut (s : Server C) (a : Action C Frame) : Option (Server C) :=
  (s.registry.step a).map fun registry => { s with registry }

def step (s : Server C) : Step C → Option (Server C)
  | .accept ws =>
    match s.phase ws with
    | .connecting => some (s.goto ws .accepted)
    | _ => none
  | .register ws =>
    match s.phase ws with
    | .accepted => (s.fanOut (.add ws)).map fun s => s.goto ws .registered
    | _ => none
  | .readFleet ws replica =>
    match s.phase ws with
    | .registered => some (s.goto ws (.fleetRead (aggregateFleetState replica)))
    | _ => none
  | .readZones ws replica =>
    match s.phase ws with
    | .fleetRead fleet => some (s.goto ws (.built ⟨fleet, zoneEntryCounts replica⟩))
    | _ => none
  | .sendSnapshot ws =>
    match s.phase ws with
    | .built payload =>
      some ({ s with registry := s.registry.deliver ws (.snapshot payload) }.goto ws .streaming)
    | _ => none
  -- a read or the send of the snapshot raises, and `finally` runs
  | .fail ws =>
    match s.phase ws with
    | .registered | .fleetRead _ | .built _ => some (s.goto ws .closing)
    | _ => none
  | .disconnect ws =>
    match s.phase ws with
    | .streaming => some (s.goto ws .closing)
    | _ => none
  | .unregister ws =>
    match s.phase ws with
    | .closing => (s.fanOut (.remove ws)).map fun s => s.goto ws .closed
    | _ => none
  | .broadcast message targets => s.fanOut (.broadcast (.delta message) targets)
  | .sent ws => s.fanOut (.sent ws)
  | .raised ws => s.fanOut (.raised ws)
  | .ended => s.fanOut .ended

/-- The client has been sent its snapshot. -/
def hasSnapshot (s : Server C) (ws : C) : Bool := (s.registry.received ws).any Frame.isSnapshot

/-- No broadcast copies its targets while a registered client waits for its snapshot. -/
def Ready (s : Server C) : Step C → Prop
  | .broadcast _ _ => ∀ ws ∈ s.registry.connections, s.hasSnapshot ws = true
  | _ => True

instance (s : Server C) : ∀ a, Decidable (s.Ready a)
  | .broadcast _ _ =>
    inferInstanceAs (Decidable (∀ ws ∈ s.registry.connections, s.hasSnapshot ws = true))
  | .accept _ | .register _ | .readFleet _ _ | .readZones _ _ | .sendSnapshot _ | .fail _
  | .disconnect _ | .unregister _ | .sent _ | .raised _ | .ended => isTrue trivial

end Server

/-- Nothing yet, or one snapshot and then deltas only. -/
def SnapshotFirst (frames : List Frame) : Prop :=
  frames = [] ∨ ∃ (payload : Snapshot) (messages : List String),
    frames = .snapshot payload :: messages.map .delta

/-- Up to the send of the snapshot. -/
def Phase.waiting : Phase → Bool
  | connecting | accepted | registered | fleetRead _ | built _ => true
  | streaming | closing | closed => false

namespace Server

variable {C : Type} [DecidableEq C]

/-- What every step that is `Ready` preserves. -/
structure Orderly (s : Server C) : Prop where
  first : ∀ c, SnapshotFirst (s.registry.received c)
  waiting : ∀ c, (s.phase c).waiting = true → s.registry.received c = []
  targeted : ∀ b, s.registry.current = some b →
    (∃ message, b.message = .delta message) ∧ ∀ c ∈ b.targets, s.registry.received c ≠ []

namespace Orderly

omit [DecidableEq C] in
theorem started : (Server.started : Server C).Orderly where
  first _ := Or.inl rfl
  waiting _ _ := rfl
  targeted _ running := by cases running

theorem goto {s : Server C} (orderly : s.Orderly) (ws : C) (phase : Phase)
    (still : phase.waiting = true → s.registry.received ws = []) : (s.goto ws phase).Orderly where
  first := orderly.first
  waiting c before := by
    by_cases same : c = ws
    · subst same
      exact still (by simpa [Server.goto] using before)
    · exact orderly.waiting c (by simpa [Server.goto, same] using before)
  targeted := orderly.targeted

theorem snapshot {s : Server C} (orderly : s.Orderly) (ws : C) (payload : Snapshot)
    (built : s.phase ws = .built payload) :
    ({ s with registry := s.registry.deliver ws (.snapshot payload) }.goto ws
      .streaming).Orderly := by
  have nothing : s.registry.received ws = [] := orderly.waiting ws (by rw [built]; rfl)
  constructor
  · intro c
    simp only [Server.goto, Registry.received_deliver]
    split
    · exact Or.inr ⟨payload, [], by simp [nothing]⟩
    · exact orderly.first c
  · intro c before
    by_cases same : c = ws
    · subst same
      simp [Server.goto, Phase.waiting] at before
    · simp only [Server.goto, Registry.received_deliver, if_neg same]
      exact orderly.waiting c (by simpa [Server.goto, same] using before)
  -- a broadcast that is running has targets with a snapshot before, and so after
  · intro b running
    obtain ⟨delta, sent⟩ := orderly.targeted b running
    refine ⟨delta, fun c target => ?_⟩
    simp only [Server.goto, Registry.received_deliver]
    split
    · simp
    · exact sent c target

/-- A send of the running broadcast: its target already has its snapshot. -/
theorem delta {s : Server C} (orderly : s.Orderly) {ws : C} {message : Frame} {rest dead : List C}
    (running : s.registry.current = some ⟨message, ws :: rest, dead⟩) :
    { s with registry := { s.registry.deliver ws message with
      current := some ⟨message, rest, dead⟩ } }.Orderly := by
  obtain ⟨⟨text, rfl⟩, sent⟩ := orderly.targeted _ running
  -- the target has received something, so its first frame is its snapshot
  have some_ := sent ws List.mem_cons_self
  constructor
  · intro c
    simp only [Registry.received_deliver]
    split
    · rcases orderly.first ws with none | ⟨payload, messages, frames⟩
      · exact (some_ none).elim
      · exact Or.inr ⟨payload, messages ++ [text], by simp [frames]⟩
    · exact orderly.first c
  · intro c before
    have nothing := orderly.waiting c before
    have apart : c ≠ ws := by
      rintro rfl
      exact some_ nothing
    simpa only [Registry.received_deliver, if_neg apart] using nothing
  · rintro b ⟨rfl⟩
    refine ⟨⟨text, rfl⟩, fun c target => ?_⟩
    simp only [Registry.received_deliver]
    split
    · simp
    · exact sent c (List.mem_cons_of_mem _ target)

theorem fanOut {s s' : Server C} (orderly : s.Orderly) {a : Action C Frame}
    (ready : ∀ message targets, a = .broadcast message targets →
      (∃ text, message = .delta text) ∧ ∀ c ∈ s.registry.connections, s.registry.received c ≠ [])
    (performed : s.fanOut a = some s') : s'.Orderly := by
  obtain ⟨registry, stepped, rfl⟩ := Option.map_eq_some_iff.mp performed
  have effect := Registry.step_cases stepped
  cases a with
  | add ws =>
    obtain rfl : registry = _ := effect
    exact ⟨orderly.first, orderly.waiting, orderly.targeted⟩
  | remove ws =>
    obtain rfl : registry = _ := effect
    exact ⟨orderly.first, orderly.waiting, orderly.targeted⟩
  | broadcast message targets =>
    -- the targets are the clients registered now, all of which have their snapshots
    obtain ⟨_, _, copy, rfl⟩ := effect
    obtain ⟨text, sent⟩ := ready message targets rfl
    refine ⟨orderly.first, orderly.waiting, ?_⟩
    rintro b ⟨rfl⟩
    refine ⟨text, fun c target => sent c ?_⟩
    rw [← copy]
    exact List.mem_toFinset.mpr target
  | sent ws =>
    obtain ⟨message, rest, dead, running, rfl⟩ := effect
    exact orderly.delta running
  | raised ws =>
    obtain ⟨message, rest, dead, running, rfl⟩ := effect
    refine ⟨orderly.first, orderly.waiting, ?_⟩
    rintro b ⟨rfl⟩
    obtain ⟨text, sent⟩ := orderly.targeted _ running
    exact ⟨text, fun c target => sent c (List.mem_cons_of_mem _ target)⟩
  | ended =>
    obtain ⟨message, dead, running, rfl⟩ := effect
    refine ⟨orderly.first, orderly.waiting, ?_⟩
    intro b impossible
    cases impossible

/-- A step of the registry that begins no broadcast. -/
theorem fanOut_other {s s' : Server C} (orderly : s.Orderly) {a : Action C Frame}
    (other : ∀ message targets, a ≠ .broadcast message targets)
    (performed : s.fanOut a = some s') : s'.Orderly :=
  orderly.fanOut (fun message targets equal => (other message targets equal).elim) performed

theorem step {s s' : Server C} (orderly : s.Orderly) {a : Step C} (ready : s.Ready a)
    (performed : s.step a = some s') : s'.Orderly := by
  cases a with
  | accept ws =>
    simp only [Server.step] at performed
    split at performed
    next phase =>
      cases performed
      exact orderly.goto ws .accepted fun _ => orderly.waiting ws (by rw [phase]; rfl)
    · cases performed
  | register ws =>
    simp only [Server.step] at performed
    split at performed
    next phase =>
      obtain ⟨added, stepped, rfl⟩ := Option.map_eq_some_iff.mp performed
      -- registering sends nothing, so the client is still waiting
      have before := orderly.waiting ws (by rw [phase]; rfl)
      have orderly' := orderly.fanOut_other (by simp) stepped
      obtain ⟨registry, add, rfl⟩ := Option.map_eq_some_iff.mp stepped
      obtain rfl : registry = _ := Registry.step_cases add
      exact orderly'.goto ws .registered fun _ => before
    · cases performed
  | readFleet ws replica =>
    simp only [Server.step] at performed
    split at performed
    next phase =>
      cases performed
      exact orderly.goto ws _ fun _ => orderly.waiting ws (by rw [phase]; rfl)
    · cases performed
  | readZones ws replica =>
    simp only [Server.step] at performed
    split at performed
    next fleet phase =>
      cases performed
      exact orderly.goto ws _ fun _ => orderly.waiting ws (by rw [phase]; rfl)
    · cases performed
  | sendSnapshot ws =>
    simp only [Server.step] at performed
    split at performed
    next payload phase =>
      cases performed
      exact orderly.snapshot ws payload phase
    · cases performed
  | fail ws =>
    simp only [Server.step] at performed
    split at performed
    any_goals
      cases performed
    -- from whichever phase, a client that fails waits for nothing any more
    all_goals exact orderly.goto ws .closing (by simp [Phase.waiting])
  | disconnect ws =>
    simp only [Server.step] at performed
    split at performed
    · cases performed
      exact orderly.goto ws .closing (by simp [Phase.waiting])
    · cases performed
  | unregister ws =>
    simp only [Server.step] at performed
    split at performed
    · obtain ⟨removed, stepped, rfl⟩ := Option.map_eq_some_iff.mp performed
      exact (orderly.fanOut_other (by simp) stepped).goto ws .closed (by simp [Phase.waiting])
    · cases performed
  | broadcast message targets =>
    refine orderly.fanOut ?_ performed
    rintro _ _ ⟨rfl, rfl⟩
    refine ⟨⟨message, rfl⟩, ?_⟩
    intro c registered nothing
    have snapshot := ready c registered
    simp [hasSnapshot, nothing] at snapshot
  | sent ws => exact orderly.fanOut_other (by simp) performed
  | raised ws => exact orderly.fanOut_other (by simp) performed
  | ended => exact orderly.fanOut_other (by simp) performed

end Orderly

/-- In every run whose broadcasts only begin once all registered clients have their
snapshots, each client's first message is its one snapshot and the rest are deltas. -/
theorem snapshotFirst_of_ready (steps : List (Step C)) (s : Server C)
    (reached : Machine.run step started steps = some s)
    (ready : Machine.Meets Ready step started steps) (c : C) :
    SnapshotFirst (s.registry.received c) := by
  have orderly : s.Orderly := by
    refine Machine.run_induction (P := fun _ s => s.Orderly) .started ?_ ready reached
    intro _ a mid s' orderly ready performed
    exact orderly.step ready performed
  exact orderly.first c

/-- One client streams while a second one is still connecting. -/
theorem snapshotFirst_of_ready_stream : ∃ s : Server Nat,
    Machine.run step started
      [.accept 1, .register 1, .readFleet 1 .seeded, .accept 2, .readZones 1 .seeded,
        .sendSnapshot 1, .broadcast "patch" [1], .register 2, .sent 1, .ended] = some s ∧
      (s.registry.received 1).length = 2 ∧ SnapshotFirst (s.registry.received 1) := by
  have ⟨s, reached, two⟩ : ∃ s : Server Nat, Machine.run step started
      [.accept 1, .register 1, .readFleet 1 .seeded, .accept 2, .readZones 1 .seeded,
        .sendSnapshot 1, .broadcast "patch" [1], .register 2, .sent 1, .ended] = some s ∧
      (s.registry.received 1).length = 2 :=
    ⟨_, rfl, rfl⟩
  exact ⟨s, reached, two, snapshotFirst_of_ready _ s reached (by decide) 1⟩

/-- The client is registered before its snapshot is built, and a broadcast comes in between. -/
theorem snapshotFirst_overtaken :
    ¬∀ (steps : List (Step Nat)) (s : Server Nat), Machine.run step started steps = some s →
      ∀ c, SnapshotFirst (s.registry.received c) := by
  intro all
  have ⟨s, reached, frames⟩ : ∃ s : Server Nat, Machine.run step started
      [.accept 1, .register 1, .broadcast "patch" [1], .sent 1, .ended] = some s ∧
      s.registry.received 1 = [.delta "patch"] :=
    ⟨_, rfl, rfl⟩
  rcases all _ s reached 1 with none | ⟨payload, messages, first⟩
  · rw [frames] at none
    cases none
  · rw [frames] at first
    cases first

end Server

end FleetTelemetry.Frontend
