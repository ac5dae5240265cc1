import FleetTelemetry.Ingest.CommsLoss

/-!
# Anomalies and raw history

The anomalies of an event, its raw row and its current row are four writes of one
transaction, decided before any of them is sent. Since they become visible together, the
counts of the stateless anomalies follow the raw rows in every committed state.
-/

namespace FleetTelemetry.Ingest

open Foundations Service

def isAnomaly (vehicleId : String) (type : AnomalyType) (a : Anomaly) : Bool :=
  decide (a.vehicleId = vehicleId) && decide (a.anomalyType = type)

def isFaultReading (vehicleId : String) (r : RawEvent) : Bool :=
  decide (r.vehicleId = vehicleId) && decide (r.status = .fault)

def isLowBatteryReading (vehicleId : String) (r : RawEvent) : Bool :=
  decide (r.vehicleId = vehicleId) && r.batteryPct.lt lowBatteryPct &&
    decide (r.status ≠ .charging)

/-- The vehicle's anomalies and its current row agree with its raw rows. -/
structure Consistent (db : Db) (vehicleId : String) : Prop where
  faults : db.anomalies.countP (isAnomaly vehicleId .faultStatus) =
    db.rawEvents.countP (isFaultReading vehicleId)
  lowBatteries : db.anomalies.countP (isAnomaly vehicleId .lowBattery) =
    db.rawEvents.countP (isLowBatteryReading vehicleId)
  dated : ∀ a ∈ db.anomalies, a.vehicleId = vehicleId → a.anomalyType ≠ .commsLoss →
    ∃ r ∈ db.rawEvents, r.vehicleId = vehicleId ∧ r.recordedAt = a.detectedAt
  rows : db.vehicleCurrentState.keys.count vehicleId =
    if vehicleId ∈ db.rawEvents.map RawEvent.vehicleId then 1 else 0
  mirrored : ∀ row, db.vehicleCurrentState.get? vehicleId = some row →
    ∃ r ∈ db.rawEvents, r.vehicleId = vehicleId ∧ r.status = row.status ∧
      r.batteryPct = row.batteryPct ∧ r.recordedAt = row.recordedAt

section Detected

variable {event : TelemetryEvent} {prior : Option CurrentState} {anomalies : List Firing}

/-- A stateless rule fires at most once, and only by its own condition. -/
theorem count_detected (detected : detectAnomalies event prior = .ok anomalies)
    (type : AnomalyType)
    (stateless : type ≠ .stuck ∧ type ≠ .teleport ∧ type ≠ .batteryRising) (v : String) :
    (anomalies.map event.anomaly).countP (isAnomaly v type) =
      if event.vehicleId = v then
        (statelessAnomalies event).countP fun firing => decide (firing.1 = type)
      else 0 := by
  obtain ⟨stateful, rfl, compared⟩ := detectAnomalies_ok detected
  -- what the prior reading contributes is of the three other types
  have none : stateful.countP (fun firing => decide (firing.1 = type)) = 0 := by
    rw [List.countP_eq_zero]
    intro firing later
    obtain ⟨stuck, teleport, rising⟩ := stateless
    obtain ⟨fired | fired | fired, _⟩ := compared firing later
    · simp [fired, stuck.symm]
    · simp [fired, teleport.symm]
    · simp [fired, rising.symm]
  rw [List.countP_map]
  by_cases own : event.vehicleId = v
  · have types : isAnomaly v type ∘ event.anomaly = fun firing => decide (firing.1 = type) := by
      funext firing
      simp [isAnomaly, TelemetryEvent.anomaly, own]
    rw [types, List.countP_append, none, if_pos own, Nat.add_zero]
  · rw [if_neg own, List.countP_eq_zero]
    intro firing _
    simp [isAnomaly, TelemetryEvent.anomaly, own]

theorem count_faultStatus (event : TelemetryEvent) :
    (statelessAnomalies event).countP (fun firing => decide (firing.1 = .faultStatus)) =
      if event.status = .fault then 1 else 0 := by
  simp only [statelessAnomalies, List.countP_append]
  split_ifs <;> rfl

theorem count_lowBattery (event : TelemetryEvent) :
    (statelessAnomalies event).countP (fun firing => decide (firing.1 = .lowBattery)) =
      if event.batteryPct.lt lowBatteryPct ∧ event.status ≠ .charging then 1 else 0 := by
  simp only [statelessAnomalies, List.countP_append]
  split_ifs <;> rfl

end Detected

/-- The primary key admits one row, so counting rows is asking for one. -/
theorem rows_iff (db : Db) (v : String) :
    (db.vehicleCurrentState.keys.count v =
      if v ∈ db.rawEvents.map RawEvent.vehicleId then 1 else 0) ↔
    (v ∈ db.vehicleCurrentState.keys ↔ v ∈ db.rawEvents.map RawEvent.vehicleId) := by
  have count : db.vehicleCurrentState.keys.count v =
      if v ∈ db.vehicleCurrentState.keys then 1 else 0 := by
    split
    next present => exact List.count_eq_one_of_mem db.vehicleCurrentState.keys_nodup present
    next absent => exact List.count_eq_zero.mpr absent
  rw [count]
  split_ifs with present known known <;> simp [present, known]

namespace Consistent

theorem start {db : Db} (noEvents : db.rawEvents = [])
    (noReadings : db.vehicleCurrentState = .empty) (noAnomalies : db.anomalies = [])
    (v : String) : Consistent db v := by
  constructor <;> simp [noEvents, noReadings, noAnomalies]

theorem ingest {db : Db} {v : String} (consistent : Consistent db v) {event : TelemetryEvent}
    {prior : Option CurrentState} {anomalies : List Firing}
    (detected : detectAnomalies event prior = .ok anomalies) :
    Consistent (ingest event anomalies db) v where
  faults := by
    have count := count_detected detected .faultStatus (by decide) v
    rw [count_faultStatus] at count
    simp only [FleetTelemetry.ingest, List.countP_append, consistent.faults, count,
      List.countP_singleton, isFaultReading, TelemetryEvent.rawEvent]
    by_cases own : event.vehicleId = v <;> simp [own]
  lowBatteries := by
    have count := count_detected detected .lowBattery (by decide) v
    rw [count_lowBattery] at count
    simp only [FleetTelemetry.ingest, List.countP_append, consistent.lowBatteries, count,
      List.countP_singleton, isLowBatteryReading, TelemetryEvent.rawEvent]
    by_cases own : event.vehicleId = v <;> simp [own]
  dated := by
    intro a listed owner type
    rcases List.mem_append.mp listed with old | new
    · obtain ⟨r, earlier, same⟩ := consistent.dated a old owner type
      exact ⟨r, List.mem_append_left _ earlier, same⟩
    · obtain ⟨firing, _, rfl⟩ := List.mem_map.mp new
      exact ⟨event.rawEvent, List.mem_append_right _ (List.mem_singleton_self _), owner, rfl⟩
  -- the event adds its vehicle to both sides
  rows := by
    rw [rows_iff]
    have before := (rows_iff db v).mp consistent.rows
    simp only [FleetTelemetry.ingest, OrdMap.mem_keys_set, before, List.map_append,
      List.mem_append, List.map_singleton, List.mem_singleton]
    exact or_comm
  mirrored := by
    intro row found
    simp only [FleetTelemetry.ingest, OrdMap.get?_set] at found
    split at found
    next own =>
      cases found
      exact ⟨event.rawEvent, List.mem_append_right _ (List.mem_singleton_self _), own.symm, rfl,
        rfl, rfl⟩
    · obtain ⟨r, earlier, same⟩ := consistent.mirrored row found
      exact ⟨r, List.mem_append_left _ earlier, same⟩

theorem effect {v : String} {call : Call} {before after : Db} (consistent : Consistent before v)
    (effect : TelemetryEffect call before after) : Consistent after v := by
  cases effect with
  | ingested _ detected => exact consistent.ingest detected
  | swept now _ seen =>
    -- the new rows are comms-loss rows, which nothing here speaks of
    have others : ∀ type, type ≠ .commsLoss →
        (flags now seen).countP (isAnomaly v type) = 0 := by
      intro type apart
      rw [List.countP_eq_zero]
      intro a listed
      obtain ⟨w, _, rfl⟩ := List.mem_map.mp listed
      simp [isAnomaly, flag, apart.symm]
    constructor
    · rw [List.countP_append, others .faultStatus (by decide), consistent.faults, Nat.add_zero]
    · rw [List.countP_append, others .lowBattery (by decide), consistent.lowBatteries,
        Nat.add_zero]
    · intro a listed owner type
      rcases List.mem_append.mp listed with old | new
      · exact consistent.dated a old owner type
      · obtain ⟨w, _, rfl⟩ := List.mem_map.mp new
        exact (type rfl).elim
    · exact consistent.rows
    · exact consistent.mirrored
  | status _ _ raw current anomalies =>
    obtain ⟨faults, lowBatteries, dated, rows, mirrored⟩ := consistent
    constructor <;> simp only [raw, current, anomalies] <;> assumption

end Consistent

/-- In every committed state of the service the anomalies and the current row of every
vehicle agree with its raw rows. -/
theorem history_consistent (db : Db) (noEvents : db.rawEvents = [])
    (noReadings : db.vehicleCurrentState = .empty) (noAnomalies : db.anomalies = []) (s : State)
    (reached : Reachable db s) (v : String) : Consistent s.db v := by
  refine telemetry_invariant (P := fun db => Consistent db v) reached ?_ ?_
  · exact .start noEvents noReadings noAnomalies v
  · intro call before after effect consistent
    exact consistent.effect effect

def lowFault (recordedAt : Int) : TelemetryEvent :=
  { statusReading "agv-1" .fault recordedAt agv1_length with
    batteryPct := .finite 10
    batteryPct_range := by decide +kernel }

/-- Two first events of one vehicle race, a third aborts after its raw row, and a sweep flags. -/
theorem history_consistent_race :
    ∃ s, Reachable Db.seeded s ∧
      s.db.anomalies.map Anomaly.anomalyType =
        [.faultStatus, .lowBattery, .faultStatus, .lowBattery, .commsLoss] ∧
      Consistent s.db "agv-1" := by
  have ⟨s, reached, types⟩ := exists_reachable closed [0, 1, 2] Db.seeded
    [.begin 0 (.postTelemetry (lowFault 0)), .begin 1 (.postTelemetry (lowFault 1000000)),
      .begin 2 (.postTelemetry (lowFault 2000000)),
      .advance 0, .advance 1, .advance 2, .advance 2, .abort 2, .advance 0, .advance 0,
      .advance 1, .advance 0, .advance 0, .advance 0, .advance 1, .advance 1, .advance 1,
      .advance 1, .begin 2 (.sweep 10000000), .advance 2, .advance 2]
    (fun s => decide (s.db.anomalies.map Anomaly.anomalyType =
      [.faultStatus, .lowBattery, .faultStatus, .lowBattery, .commsLoss]))
    (by decide +kernel)
  exact ⟨s, reached, by simpa using types, history_consistent Db.seeded rfl rfl rfl s reached _⟩

end FleetTelemetry.Ingest
