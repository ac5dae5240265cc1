import FleetTelemetry.Store.Statements

/-!
# Persistence operations

The write operations of `persistence.py` as transaction bodies over its statements, the
anomaly rules they evaluate between two statements, and the read seams as functions of a
committed state.
-/

namespace FleetTelemetry

open Foundations

abbrev Firing := AnomalyType × Option Detail

/-- The rules on the event alone, in the order of the source. -/
def statelessAnomalies (event : TelemetryEvent) : List Firing :=
  (if event.status = .fault then [(.faultStatus, none)] else []) ++
  (if event.errorCodes ≠ [] then [(.errorCodes, some (.errorCodes event.errorCodes))] else []) ++
  (if event.batteryPct.lt lowBatteryPct ∧ event.status ≠ .charging
    then [(.lowBattery, some (.batteryPct event.batteryPct))] else []) ++
  (if overspeedMps.lt event.speed
    then [(.overspeed, some (.speedMps event.speed))] else [])

/-- Still moving but stationary for at least the dwell window, against the prior reading. -/
def isStuck (event : TelemetryEvent) (prior : CurrentState) (dt : Int) : Bool :=
  decide (prior.status = .moving) && decide (event.status = .moving) &&
    prior.speedMps.lt stuckSpeedMps && event.speed.lt stuckSpeedMps &&
    decide (stuckMinMicros ≤ dt)

/-- The square of the implied speed between two positions `dt` microseconds apart. -/
def impliedMpsSq (event : TelemetryEvent) (prior : CurrentState) (dt : Int) : Option Double :=
  match prior.posX, prior.posY, event.posX, event.posY with
  | some px, some py, some ex, some ey =>
    if 0 < dt then
      some (((ex.sub px).hypotSq (ey.sub py)).divBy ((dt / 1000000 : ℚ) * (dt / 1000000)))
    else none
  | _, _, _, _ => none

def statefulAnomalies (event : TelemetryEvent) (prior : CurrentState) (dt : Int) : List Firing :=
  (if isStuck event prior dt then [(.stuck, some (.dwell event.speedMps dt))] else []) ++
  (match impliedMpsSq event prior dt with
    | some implied =>
      if teleportMpsSq.lt implied then [(.teleport, some (.impliedMpsSq implied))] else []
    | none => []) ++
  (if prior.batteryPct.lt event.batteryPct ∧ event.status ≠ .charging
    then [(.batteryRising, some (.rising prior.batteryPct event.batteryPct))] else [])

/-- `detect_anomalies`. The stored reading has a UTC offset, so subtracting it from an
event without one raises. -/
def detectAnomalies (event : TelemetryEvent) :
    Option CurrentState → Except PyError (List Firing)
  | none => .ok (statelessAnomalies event)
  | some prior =>
    match event.recordedAt.sub (.aware prior.recordedAt) with
    | .error e => .error e
    | .ok dt => .ok (statelessAnomalies event ++ statefulAnomalies event prior dt)

theorem stateful_fired {event : TelemetryEvent} {prior : CurrentState} {dt : Int}
    {firing : Firing} (fired : firing ∈ statefulAnomalies event prior dt) :
    (firing.1 = .stuck ∨ firing.1 = .teleport ∨ firing.1 = .batteryRising) ∧
      ∀ detail, firing.2 = some detail → detail.strings = [] := by
  simp only [statefulAnomalies, List.mem_append, List.mem_ite_nil_right,
    List.mem_singleton] at fired
  obtain (⟨_, rfl⟩ | teleported) | ⟨_, rfl⟩ := fired
  · simp [Detail.strings]
  · split at teleported
    · simp only [List.mem_ite_nil_right, List.mem_singleton] at teleported
      obtain ⟨_, rfl⟩ := teleported
      simp [Detail.strings]
    · cases teleported
  · simp [Detail.strings]

/-- With a prior reading every rule is evaluated, over the time between the two. -/
theorem detectAnomalies_some {event : TelemetryEvent} {prior : CurrentState}
    {anomalies : List Firing} (detected : detectAnomalies event (some prior) = .ok anomalies) :
    anomalies = statelessAnomalies event ++
      statefulAnomalies event prior (event.recordedAt.instant - prior.recordedAt) := by
  cases at_ : event.recordedAt with
  | aware utc =>
    simp only [detectAnomalies, at_, Datetime.sub, Except.ok.injEq] at detected
    exact detected.symm
  | naive wall =>
    -- a reading without an offset cannot be compared with a stored one at all
    simp only [detectAnomalies, at_, Datetime.sub] at detected
    cases detected

/-- The stateless rules fire first, whatever the prior reading adds to them. -/
theorem detectAnomalies_ok {event : TelemetryEvent} {prior : Option CurrentState}
    {anomalies : List Firing} (detected : detectAnomalies event prior = .ok anomalies) :
    ∃ stateful, anomalies = statelessAnomalies event ++ stateful ∧
      ∀ firing ∈ stateful,
        (firing.1 = .stuck ∨ firing.1 = .teleport ∨ firing.1 = .batteryRising) ∧
          ∀ detail, firing.2 = some detail → detail.strings = [] := by
  cases prior with
  | none =>
    cases detected
    exact ⟨[], by simp, by simp⟩
  | some prior =>
    rw [detectAnomalies_some detected]
    exact ⟨_, rfl, fun firing fired => stateful_fired fired⟩

namespace TelemetryEvent

def rawEvent (event : TelemetryEvent) : RawEvent :=
  ⟨event.vehicleId, event.status, event.batteryPct, event.recordedAt.instant⟩

def currentState (event : TelemetryEvent) : CurrentState :=
  ⟨event.status, event.batteryPct, event.speed, event.posX, event.posY,
    event.recordedAt.instant⟩

def anomaly (event : TelemetryEvent) (firing : Firing) : Anomaly :=
  ⟨event.vehicleId, firing.1, firing.2, event.recordedAt.instant⟩

end TelemetryEvent

def insertAnomalies (event : TelemetryEvent) : List Firing → Transaction Unit
  | [] => pure ()
  | firing :: rest => do
    execute (.insertAnomaly (event.anomaly firing))
    insertAnomalies event rest

def persistTelemetry (event : TelemetryEvent) : Transaction Unit := do
  let prior ← execute (.selectPrior event.vehicleId)
  match detectAnomalies event prior with
  -- the rules run between two statements, so an exception of theirs rolls back
  | .error e => .raise e
  | .ok anomalies =>
    execute (.insertRaw event.rawEvent)
    execute (.upsertCurrent event.vehicleId event.currentState)
    match event.zoneEntered with
    | some zone => execute (.incrementZone zone)
    | none => pure ()
    insertAnomalies event anomalies

/-- `transition_to_fault`: lock the vehicle row, then cancel, record and flip under it. -/
def transitionToFault (vehicleId : String) (reason : Option PyStr) : Transaction Bool := do
  let row ← execute (.lockVehicle vehicleId)
  match row with
  | none => .raise (.lookupError ("unknown vehicle: " ++ vehicleId))
  -- already in fault: a second report neither cancels nor records anything
  | some .fault => pure false
  | some _ =>
    let missionId ← execute (.cancelActiveMission vehicleId)
    execute (.insertMaintenance vehicleId missionId reason)
    execute (.setVehicleFault vehicleId)
    pure true

def setVehicleStatus (vehicleId : String) (status : VehicleStatus) : Transaction Bool := do
  let rowcount ← execute (.setVehicleStatus vehicleId status)
  pure (decide (0 < rowcount))

/-- `detect_comms_loss`: one sweep at the instant `now`. -/
def detectCommsLoss (now : Int) : Transaction Nat :=
  execute (.insertCommsLoss "no event for over 5s" now (now - commsLossTimeoutMicros))

/-- The rows of `GROUP BY status`, in the order the statuses are first met. -/
def groupByStatus (db : Db) : List (VehicleStatus × Nat) :=
  let rows := db.vehicleCurrentState.entries.map fun e => e.2.status
  rows.dedup.map fun status => (status, rows.count status)

/-- `aggregate_fleet_state`: a zero per status, overwritten by the grouped counts. -/
def aggregateFleetState (db : Db) : OrdMap VehicleStatus Nat :=
  (groupByStatus db).foldl (fun counts row => counts.set row.1 row.2)
    (statuses.foldl (fun counts status => counts.set status 0) .empty)

def zoneEntryCounts (db : Db) : OrdMap String Int := db.zoneCounts

end FleetTelemetry
