import FleetTelemetry.Service.Effects
import Mathlib.Algebra.BigOperators.Group.List.Lemmas
import Mathlib.Data.Set.Card

/-!
# The fleet aggregate

The grouped count over `vehicle_current_state` in terms of the committed events. Because
the raw row and the current row of an event become visible together, every committed
state has one current row per vehicle ever seen, the one its last committed event wrote.
-/

namespace FleetTelemetry.Ingest

open Foundations Service

/-- The vehicle's last event in commit order. -/
def lastEvent (events : List TelemetryEvent) (vehicleId : String) : Option TelemetryEvent :=
  events.reverse.find? fun event => decide (event.vehicleId = vehicleId)

theorem lastEvent_snoc (events : List TelemetryEvent) (event : TelemetryEvent) (v : String) :
    lastEvent (events ++ [event]) v =
      if event.vehicleId = v then some event else lastEvent events v := by
  unfold lastEvent
  rw [List.reverse_append, List.reverse_singleton, List.singleton_append, List.find?_cons]
  by_cases same : event.vehicleId = v <;> simp [same]

theorem lastEvent_isSome (events : List TelemetryEvent) (v : String) :
    (lastEvent events v).isSome = true ↔ v ∈ events.map TelemetryEvent.vehicleId := by
  simp [lastEvent, List.find?_isSome]

/-- The tables hold what the committed events wrote, and nothing else. -/
structure Recorded (events : List TelemetryEvent) (db : Db) : Prop where
  raw : db.rawEvents = events.map TelemetryEvent.rawEvent
  current : ∀ v, db.vehicleCurrentState.get? v =
    (lastEvent events v).map TelemetryEvent.currentState

theorem Recorded.ingest {events : List TelemetryEvent} {db : Db} (recorded : Recorded events db)
    (event : TelemetryEvent) (anomalies : List Firing) :
    Recorded (events ++ [event]) (ingest event anomalies db) where
  raw := by simp [FleetTelemetry.ingest, recorded.raw]
  current v := by
    simp only [FleetTelemetry.ingest, OrdMap.get?_set, lastEvent_snoc, recorded.current v]
    by_cases same : event.vehicleId = v
    · simp [same]
    · have apart : v ≠ event.vehicleId := fun equal => same equal.symm
      simp [same, apart]

theorem readings_effect {answer} {call : Call} {answered : List (Sigma Stmt.Ret)}
    {reply : Reply} {before after : Db}
    (effect : Effect answer call answered reply before after) :
    (∃ event anomalies, call = .postTelemetry event ∧ after = ingest event anomalies before) ∨
    ((∀ event, call ≠ .postTelemetry event) ∧ after.rawEvents = before.rawEvents ∧
      after.vehicleCurrentState = before.vehicleCurrentState) := by
  cases effect with
  | ingested read detected => exact .inl ⟨_, _, rfl, rfl⟩
  | alreadyInFault | enteredFault | unmatched | updated | swept =>
    right
    refine ⟨?_, rfl, rfl⟩
    intro event
    simp

theorem recorded_reachable {db : Db} {s : State} (reached : Reachable db s)
    (noEvents : db.rawEvents = []) (noReadings : db.vehicleCurrentState = .empty) :
    Recorded (committedEvents s.log) s.db := by
  refine reached.log_invariant (P := fun log db => Recorded (committedEvents log) db) ?_ ?_ ?_
  · exact ⟨noEvents, by simp [noReadings, lastEvent, committedEvents]⟩
  · intro log call error db recorded
    rwa [committedEvents_other _ _ (by simp)]
  · intro log call answered reply before after effect recorded
    rcases readings_effect effect with ⟨event, anomalies, rfl, rfl⟩ | ⟨other, raw, current⟩
    · rw [committedEvents_returned]
      exact recorded.ingest event anomalies
    · rw [committedEvents_other _ _ (by simp [other])]
      exact ⟨raw.trans recorded.raw, fun v => by rw [current, recorded.current v]⟩

section Aggregate

theorem aggregateFleetState_eq (db : Db) :
    aggregateFleetState db =
      ((db.vehicleCurrentState.entries.map fun e => e.2.status).dedup).foldl
        (fun counts status =>
          counts.set status ((db.vehicleCurrentState.entries.map fun e => e.2.status).count status))
        (statuses.foldl (fun counts status => counts.set status 0) .empty) := by
  simp only [aggregateFleetState, groupByStatus, List.foldl_map]

theorem aggregate_keys (db : Db) : (aggregateFleetState db).keys = statuses := by
  rw [aggregateFleetState_eq, OrdMap.keys_foldl_set]
  · decide
  · intro status _
    cases status <;> decide

/-- A status without a row keeps the zero it started from. -/
theorem aggregate_get? (db : Db) (status : VehicleStatus) :
    (aggregateFleetState db).get? status =
      some ((db.vehicleCurrentState.entries.map fun e => e.2.status).count status) := by
  rw [aggregateFleetState_eq, OrdMap.get?_foldl_set]
  split
  · rfl
  next absent =>
    have zero := List.count_eq_zero.mpr fun member => absent (List.mem_dedup.mpr member)
    rw [OrdMap.get?_foldl_set, if_pos (mem_statuses status), zero]

theorem sum_statuses (rows : List VehicleStatus) :
    (statuses.map fun status => rows.count status).sum = rows.length := by
  induction rows with
  | nil => rfl
  | cons status rows ih =>
    simp only [statuses, List.map_cons, List.map_nil, List.sum_cons, List.sum_nil] at ih ⊢
    cases status <;> simp <;> omega

theorem sum_aggregate (db : Db) :
    ((aggregateFleetState db).entries.map Prod.snd).sum = db.vehicleCurrentState.keys.length := by
  have values : (aggregateFleetState db).entries.map Prod.snd = statuses.map fun status =>
      (db.vehicleCurrentState.entries.map fun e => e.2.status).count status := by
    rw [OrdMap.entries_eq, aggregate_keys]
    simp only [aggregate_get?, Option.map_some, statuses, List.filterMap_cons, List.filterMap_nil,
      List.map_cons, List.map_nil]
  rw [values, sum_statuses, OrdMap.keys, List.length_map, List.length_map]

theorem count_status (db : Db) (status : VehicleStatus) :
    (db.vehicleCurrentState.entries.map fun e => e.2.status).count status =
      Set.ncard {v | (db.vehicleCurrentState.get? v).map CurrentState.status = some status} := by
  -- one row per vehicle, so counting rows is counting vehicles
  let rows := db.vehicleCurrentState.entries.filter fun e => decide (e.2.status = status)
  have unique : (rows.map Prod.fst).Nodup :=
    db.vehicleCurrentState.nodup.sublist (List.filter_sublist.map Prod.fst)
  have same : {v | (db.vehicleCurrentState.get? v).map CurrentState.status = some status} =
      ((rows.map Prod.fst).toFinset : Set String) := by
    ext v
    simp only [Set.mem_ofPred_eq, List.coe_toFinset, Option.map_eq_some_iff]
    constructor
    · rintro ⟨row, found, rfl⟩
      exact List.mem_map.mpr ⟨(v, row), List.mem_filter.mpr
        ⟨OrdMap.mem_of_get? _ _ _ found, by simp⟩, rfl⟩
    · intro member
      obtain ⟨⟨v', row⟩, listed, rfl⟩ := List.mem_map.mp member
      obtain ⟨entry, matching⟩ := List.mem_filter.mp listed
      exact ⟨row, OrdMap.lookup_of_mem db.vehicleCurrentState.nodup entry, by simpa using matching⟩
  rw [same, Set.ncard_coe_finset, List.toFinset_card_of_nodup unique, List.length_map]
  rw [List.count, List.countP_map, List.countP_eq_length_filter]
  rfl

end Aggregate

/-- The aggregate of every committed state: its keys are the four statuses, each count is
the number of vehicles whose last committed event reported the status, and the counts add
up to the vehicles in `raw_events`. -/
theorem aggregate_exact (db : Db) (noEvents : db.rawEvents = [])
    (noReadings : db.vehicleCurrentState = .empty) (s : State) (reached : Reachable db s) :
    (aggregateFleetState s.db).keys = statuses ∧
    (∀ status, (aggregateFleetState s.db).get? status = some (Set.ncard {v |
      (lastEvent (committedEvents s.log) v).map TelemetryEvent.status = some status})) ∧
    ((aggregateFleetState s.db).entries.map Prod.snd).sum =
      ((s.db.rawEvents.map RawEvent.vehicleId).dedup).length := by
  obtain ⟨raw, current⟩ := recorded_reachable reached noEvents noReadings
  refine ⟨aggregate_keys s.db, ?_, ?_⟩
  · intro status
    rw [aggregate_get?, count_status]
    simp only [current, Option.map_map]
    rfl
  · rw [sum_aggregate, raw, List.map_map]
    apply List.Perm.length_eq
    apply (List.perm_ext_iff_of_nodup s.db.vehicleCurrentState.keys_nodup
      (List.nodup_dedup _)).mpr
    -- the two sides list the same vehicles without repetition: those with a current row are
    -- those with a committed event, and each event has its raw row
    intro v
    rw [OrdMap.mem_keys_iff, current, Option.isSome_map, lastEvent_isSome, List.mem_dedup]
    rfl

def statusReading (vehicleId : String) (status : VehicleStatus) (recordedAt : Int)
    (length : 1 ≤ vehicleId.length ∧ vehicleId.length ≤ 64) : TelemetryEvent :=
  { vehicleId
    status
    batteryPct := .finite 80
    recordedAt := .aware recordedAt
    vehicleId_length := length
    batteryPct_range := batteryPct_eighty
    speedMps_range := speedMps_standing }

/-- Two vehicles, one of them with two events in flight at once, and an aborted third event. -/
theorem aggregate_exact_overlap :
    ∃ s, Reachable Db.seeded s ∧ (committedEvents s.log).length = 3 ∧
      (aggregateFleetState s.db).keys = statuses ∧
      (∀ status, (aggregateFleetState s.db).get? status = some (Set.ncard {v |
        (lastEvent (committedEvents s.log) v).map TelemetryEvent.status = some status})) ∧
      ((aggregateFleetState s.db).entries.map Prod.snd).sum =
        ((s.db.rawEvents.map RawEvent.vehicleId).dedup).length := by
  have ⟨s, reached, three⟩ := exists_reachable closed [0, 1, 2] Db.seeded
    [.begin 0 (.postTelemetry (statusReading "agv-1" .idle 0 (by decide))),
      .begin 1 (.postTelemetry (statusReading "agv-1" .moving 1 (by decide))),
      .begin 2 (.postTelemetry (statusReading "agv-2" .charging 0 (by decide))),
      .advance 0, .advance 1, .advance 2, .advance 0, .advance 1, .advance 2, .advance 1,
      .advance 2, .advance 1, .advance 0, .advance 0, .advance 2,
      .begin 1 (.postTelemetry (statusReading "agv-3" .idle 2 (by decide))),
      .advance 1, .advance 1, .advance 1, .abort 1]
    (fun s => decide ((committedEvents s.log).length = 3))
    (by decide +kernel)
  exact ⟨s, reached, by simpa using three, aggregate_exact Db.seeded rfl rfl s reached⟩

end FleetTelemetry.Ingest
