import FleetTelemetry.Frontend.Socket
import FleetTelemetry.Ingest.Aggregate
import FleetTelemetry.Ingest.ZoneCounts

/-!
# The connect snapshot

`_build_snapshot` next to the service and its standby. Each of its two reads is one
statement and sees one committed state, but they are two statements on two connections,
and commits may be replayed between them.
-/

namespace FleetTelemetry.Frontend

open Foundations

/-- How far an execution of `_build_snapshot` is. A read is kept with the number of events
the standby had replayed when it ran. -/
inductive Build where
  | started
  | fleetRead (seen : Nat) (fleet : OrdMap VehicleStatus Nat)
  | built (seen seen' : Nat) (payload : Snapshot)

structure Connect where
  service : Service.State
  replayed : Nat
  build : Build

namespace Connect

def start (db : Db) : Connect := ⟨.start db, 0, .started⟩

/-- The state the standby answers from: the commits come in the order of the primary. -/
def standby (db : Db) (c : Connect) : Db := committed db (c.service.log.take c.replayed)

inductive Step (db : Db) : Connect → Connect → Prop
  | serve {c} {service}
      (step : Foundations.Step postgres transaction Service.closed c.service service) :
      Step db c { c with service }
  | replay {c} (behind : c.replayed < c.service.log.length) :
      Step db c { c with replayed := c.replayed + 1 }
  | readFleet {c} (next : c.build = .started) :
      Step db c { c with build := .fleetRead c.replayed (aggregateFleetState (c.standby db)) }
  | readZones {c seen fleet} (next : c.build = .fleetRead seen fleet) :
      Step db c { c with build := .built seen c.replayed ⟨fleet, zoneEntryCounts (c.standby db)⟩ }

abbrev Reachable (db : Db) (c : Connect) : Prop := Relation.ReflTransGen (Step db) (start db) c

/-- What the reads have seen, in terms of the log. -/
structure Sound (db : Db) (c : Connect) : Prop where
  service : Service.Reachable db c.service
  replayed : c.replayed ≤ c.service.log.length
  fleetRead : ∀ seen fleet, c.build = .fleetRead seen fleet → seen ≤ c.replayed ∧
    fleet = aggregateFleetState (committed db (c.service.log.take seen))
  built : ∀ seen seen' payload, c.build = .built seen seen' payload →
    (seen ≤ seen' ∧ seen' ≤ c.replayed) ∧
      payload.fleet = aggregateFleetState (committed db (c.service.log.take seen)) ∧
      payload.zones = zoneEntryCounts (committed db (c.service.log.take seen'))

theorem sound_start (db : Db) : Sound db (start db) where
  service := .refl
  replayed := Nat.le_refl 0
  fleetRead := nofun
  built := nofun

theorem Sound.step {db : Db} {c c' : Connect} (sound : Sound db c) (step : Step db c c') :
    Sound db c' := by
  have inside := sound.replayed
  cases step with
  | @serve service step =>
    obtain ⟨later, grown⟩ := Foundations.Step.log_grows step
    -- what was read of the log is read of the longer log too
    have same : ∀ n, n ≤ c.replayed → service.log.take n = c.service.log.take n := by
      intro n before
      rw [grown, List.take_append_of_le_length (by omega)]
    have longer : c.replayed ≤ service.log.length := by
      rw [grown, List.length_append]
      omega
    refine ⟨.tail sound.service step, longer, ?_, ?_⟩
    · intro seen fleet at_
      obtain ⟨before, read⟩ := sound.fleetRead seen fleet at_
      exact ⟨before, by rw [same seen before]; exact read⟩
    · intro seen seen' payload at_
      obtain ⟨order, fleet, zones⟩ := sound.built seen seen' payload at_
      refine ⟨order, ?_, ?_⟩
      · rw [same seen (by omega)]
        exact fleet
      · rw [same seen' order.2]
        exact zones
  | replay behind =>
    refine ⟨sound.service, behind, ?_, ?_⟩
    · intro seen fleet at_
      obtain ⟨before, read⟩ := sound.fleetRead seen fleet at_
      exact ⟨Nat.le_succ_of_le before, read⟩
    · intro seen seen' payload at_
      obtain ⟨order, read⟩ := sound.built seen seen' payload at_
      exact ⟨⟨order.1, Nat.le_succ_of_le order.2⟩, read⟩
  | readFleet next =>
    refine ⟨sound.service, inside, ?_, nofun⟩
    intro seen fleet at_
    cases at_
    exact ⟨Nat.le_refl _, rfl⟩
  | readZones next =>
    refine ⟨sound.service, inside, nofun, ?_⟩
    intro seen seen' payload at_
    cases at_
    obtain ⟨before, read⟩ := sound.fleetRead _ _ next
    exact ⟨⟨before, Nat.le_refl _⟩, read, rfl⟩

theorem sound_reachable {db : Db} {c : Connect} (reached : Reachable db c) : Sound db c := by
  induction reached with
  | refl => exact sound_start db
  | tail _ step ih => exact ih.step step

end Connect

/-- The payload is that of one committed state. -/
def Consistent (db : Db) (log : List Service.Event) (payload : Snapshot) : Prop :=
  ∃ n, n ≤ log.length ∧ aggregateFleetState (committed db (log.take n)) = payload.fleet ∧
    zoneEntryCounts (committed db (log.take n)) = payload.zones

/-- The vehicles whose current row has the status. -/
def inStatus (db : Db) (status : VehicleStatus) : Nat :=
  (db.vehicleCurrentState.entries.map fun e => e.2.status).count status

def SameCounts (db db' : Db) : Prop := ∀ status, inStatus db status = inStatus db' status

/-- A committed event that entered a zone with a row. -/
def countsEntry : Service.Event → Bool
  | .returned (.postTelemetry event) _ _ before _ => Ingest.knownEntry before.zoneCounts event
  | _ => false

/-- No event between the two points of the log counted an entry. -/
def QuietBetween (log : List Service.Event) (n m : Nat) : Prop :=
  ∀ e ∈ (log.take (max n m)).drop (min n m), countsEntry e = false

theorem aggregate_eq_iff (db db' : Db) :
    aggregateFleetState db = aggregateFleetState db' ↔ SameCounts db db' := by
  constructor
  · intro same status
    have count : (aggregateFleetState db).get? status = (aggregateFleetState db').get? status := by
      rw [same]
    rw [Ingest.aggregate_get?, Ingest.aggregate_get?, Option.some.injEq] at count
    exact count
  · intro same
    apply OrdMap.ext
    · rw [Ingest.aggregate_keys, Ingest.aggregate_keys]
    · intro status
      rw [Ingest.aggregate_get?, Ingest.aggregate_get?, Option.some.injEq]
      exact same status

theorem countsEntry_event {e : Service.Event} (explained : Service.Explained Service.closed e) :
    e.after.zoneCounts.total =
        e.before.zoneCounts.total + (if countsEntry e = true then 1 else 0) ∧
      (countsEntry e = false → e.after.zoneCounts = e.before.zoneCounts) := by
  cases e with
  | raised call error state => simp [countsEntry, Event.after, Event.before]
  -- the closed world has no writes from outside
  | outside before after =>
    obtain ⟨_, impossible⟩ := explained
    exact impossible.elim
  | returned call answered reply before after =>
    simp only [Event.after, Event.before]
    rcases Ingest.zoneCounts_effect explained with ⟨event, rfl, moved⟩ | ⟨other, kept⟩
    · rw [moved, Ingest.total_countEntry]
      refine ⟨rfl, ?_⟩
      intro unknown
      exact Ingest.countEntry_unknown _ unknown
    -- what is no ingest counts no entry
    · have uncounted : countsEntry (.returned call answered reply before after) = false := by
        cases call with
        | postTelemetry event => exact (other event rfl).elim
        | postVehicleStatus | sweep => rfl
      simp [uncounted, kept]

/-- The counters never go back, so they are the same again only if nothing was counted. -/
theorem zoneCounts_eq_iff {db db' : Db} {log : List Service.Event}
    (chain : Chain db log db') (explained : ∀ e ∈ log, Service.Explained Service.closed e) :
    db'.zoneCounts = db.zoneCounts ↔ ∀ e ∈ log, countsEntry e = false := by
  -- the sum of the counters tells how many entries were counted, and by nobody else
  have counted := Chain.invariant
    (fun log db' => db'.zoneCounts.total = db.zoneCounts.total + log.countP countsEntry ∧
      ((∀ e ∈ log, countsEntry e = false) → db'.zoneCounts = db.zoneCounts))
    (Service.Explained Service.closed) chain explained ⟨by simp, fun _ => rfl⟩ ?_
  · constructor
    · intro same e member
      have none : log.countP countsEntry = 0 := by
        have total := counted.1
        rw [same] at total
        omega
      simpa using List.countP_eq_zero.mp none e member
    · exact counted.2
  · rintro log e explained ⟨total, quiet⟩
    obtain ⟨grown, kept⟩ := countsEntry_event explained
    constructor
    · rw [grown, total, List.countP_append, List.countP_singleton]
      push_cast
      omega
    · intro all
      rw [kept (all e (by simp)), quiet fun e' member => all e' (by simp [member])]

section Points

variable {db : Db} {s : Service.State} (reached : Service.Reachable db s)

include reached

theorem zoneCounts_points_of_le {n m : Nat} (order : n ≤ m) :
    (committed db (s.log.take m)).zoneCounts = (committed db (s.log.take n)).zoneCounts ↔
      ∀ e ∈ (s.log.take m).drop n, countsEntry e = false := by
  apply zoneCounts_eq_iff (Chain.between (Foundations.Reachable.chain reached) order)
  intro e member
  exact Service.ReachableWith.explained Service.agree_closed reached e
    (List.mem_of_mem_take (List.mem_of_mem_drop member))

theorem zoneCounts_points (n m : Nat) :
    zoneEntryCounts (committed db (s.log.take n)) = zoneEntryCounts (committed db (s.log.take m)) ↔
      QuietBetween s.log n m := by
  unfold QuietBetween zoneEntryCounts
  rcases Nat.le_total n m with order | order
  · rw [Nat.max_eq_right order, Nat.min_eq_left order, ← zoneCounts_points_of_le reached order]
    exact eq_comm
  · rw [Nat.max_eq_left order, Nat.min_eq_right order]
    exact zoneCounts_points_of_le reached order

end Points

/-- The snapshot is one committed state exactly if, from the first read on, the fleet was
seen in the same numbers in a state with no counted entry between it and the second. -/
theorem connectSnapshot_consistent_iff (db : Db) (c : Connect) (reached : Connect.Reachable db c)
    (seen seen' : Nat) (payload : Snapshot) (built : c.build = .built seen seen' payload) :
    Consistent db c.service.log payload ↔
      ∃ n, (seen ≤ n ∧ n ≤ c.service.log.length) ∧
        SameCounts (committed db (c.service.log.take n))
          (committed db (c.service.log.take seen)) ∧
        QuietBetween c.service.log n seen' := by
  have sound := Connect.sound_reachable reached
  obtain ⟨order, fleet, zones⟩ := sound.built seen seen' payload built
  have inside := sound.replayed
  rw [Consistent, fleet, zones]
  simp only [aggregate_eq_iff, zoneCounts_points sound.service]
  constructor
  · rintro ⟨n, within, counts, quiet⟩
    by_cases after : seen ≤ n
    · exact ⟨n, ⟨after, within⟩, counts, quiet⟩
    -- an earlier state with the same counters: nothing was counted between the two reads
    · refine ⟨seen, ⟨Nat.le_refl _, by omega⟩, fun _ => rfl, ?_⟩
      have before : n ≤ seen := by omega
      intro e member
      apply quiet e
      rw [Nat.max_eq_right order.1, Nat.min_eq_left order.1] at member
      rw [Nat.max_eq_right (before.trans order.1), Nat.min_eq_left (before.trans order.1)]
      exact List.drop_subset_drop_left _ before member
  · rintro ⟨n, ⟨_, within⟩, counts, quiet⟩
    exact ⟨n, within, counts, quiet⟩

/-- A whole run of the service may be committed and replayed between the two reads. -/
theorem Connect.reachable_around {db : Db} {s : Service.State}
    (reached : Service.Reachable db s) :
    Connect.Reachable db ⟨s, s.log.length, .built 0 s.log.length
      ⟨aggregateFleetState db, zoneEntryCounts (committed db s.log)⟩⟩ := by
  -- the fleet is read first, then everything is served and replayed, then the zones
  have read : Connect.Reachable db ⟨.start db, 0, .fleetRead 0 (aggregateFleetState db)⟩ :=
    .single (.readFleet rfl)
  have served : Connect.Reachable db ⟨s, 0, .fleetRead 0 (aggregateFleetState db)⟩ := by
    induction reached with
    | refl => exact read
    | tail _ step ih => exact .tail ih (.serve step)
  have replayed : ∀ n, n ≤ s.log.length →
      Connect.Reachable db ⟨s, n, .fleetRead 0 (aggregateFleetState db)⟩ := by
    intro n inside
    induction n with
    | zero => exact served
    | succ n ih => exact .tail (ih (by omega)) (.replay inside)
  have last := Relation.ReflTransGen.tail (replayed _ (Nat.le_refl _)) (.readZones rfl)
  simpa only [standby, List.take_length] using last

/-- A vehicle changes its status between the reads and enters no zone. -/
theorem connectSnapshot_consistent_iff_statusChange :
    ∃ s payload, Connect.Reachable .seeded ⟨s, s.log.length, .built 0 s.log.length payload⟩ ∧
      s.log.length = 1 ∧ Consistent .seeded s.log payload := by
  have ⟨s, reached, held⟩ := Service.exists_reachable Service.closed [0] .seeded
    [.begin 0 (.postTelemetry (Ingest.statusReading "agv-1" .moving 0 (by decide))),
      .advance 0, .advance 0, .advance 0, .advance 0]
    (fun s => decide (s.log.length = 1) && s.log.all fun e => !countsEntry e) (by decide +kernel)
  simp only [Bool.and_eq_true, decide_eq_true_eq, List.all_eq_true, Bool.not_eq_true'] at held
  have around := Connect.reachable_around reached
  have torn := connectSnapshot_consistent_iff .seeded _ around _ _ _ rfl
  refine ⟨s, _, around, held.1, torn.mpr ⟨0, ⟨Nat.le_refl 0, Nat.zero_le _⟩, fun _ => rfl, ?_⟩⟩
  intro e member
  exact held.2 e (List.mem_of_mem_take (List.mem_of_mem_drop member))

/-- A vehicle starts moving and enters an aisle between the reads: no committed state has the empty
fleet next to the counted entry. -/
theorem connectSnapshot_torn :
    ∃ s payload, Connect.Reachable .seeded ⟨s, s.log.length, .built 0 s.log.length payload⟩ ∧
      ¬Consistent .seeded s.log payload := by
  have ⟨s, reached, held⟩ := Service.exists_reachable Service.closed [0] .seeded
    [.begin 0 (.postTelemetry (Ingest.aisleEntry "agv-1" (by decide))),
      .advance 0, .advance 0, .advance 0, .advance 0, .advance 0]
    (fun s => decide (s.log.length = 1) &&
      decide ((aggregateFleetState (committed .seeded s.log)).get? .moving = some 1) &&
      decide ((committed .seeded s.log).zoneCounts.get? "aisle_a" = some 1)) (by decide +kernel)
  simp only [Bool.and_eq_true, decide_eq_true_eq] at held
  obtain ⟨⟨one, moving⟩, entered⟩ := held
  refine ⟨s, _, Connect.reachable_around reached, ?_⟩
  rintro ⟨n, within, fleet, zones⟩
  -- before the reading nothing has been counted, after it a vehicle is moving
  cases n with
  | zero =>
    have none : Db.seeded.zoneCounts.get? "aisle_a" = some 0 := by decide +kernel
    have same : Db.seeded.zoneCounts = (committed .seeded s.log).zoneCounts := zones
    rw [same, entered] at none
    cases none
  | succ n =>
    have all : s.log.take (n + 1) = s.log := List.take_of_length_le (by omega)
    rw [all] at fleet
    have idle : (aggregateFleetState .seeded).get? .moving = some 0 := by decide +kernel
    have same : aggregateFleetState (committed .seeded s.log) = aggregateFleetState .seeded := fleet
    rw [same, idle] at moving
    cases moving

end FleetTelemetry.Frontend
