import FleetTelemetry.Foundations.Projection
import FleetTelemetry.Service.FaultHandling

/-!
# The two write paths

Telemetry with its sweeps keeps to the reading tables, the status endpoint to the vehicles,
their missions and their maintenance records. So a run of both is a run of either one, with
the other tables as they were: no request of one path is delayed, refused or answered
differently because of the other.
-/

namespace FleetTelemetry

open Foundations

namespace Stmt

/-- The statements on the reading tables. -/
def reads : Stmt → Bool
  | selectPrior _ | insertRaw _ | upsertCurrent _ _ | incrementZone _ | insertAnomaly _
  | insertCommsLoss _ _ _ => true
  | lockVehicle _ | cancelActiveMission _ | insertMaintenance _ _ _ | setVehicleFault _
  | setVehicleStatus _ _ => false

end Stmt

/-- The writes to the reading tables. -/
def Write.reading : Write → Bool
  | appendRaw _ | putCurrent _ _ | putZone _ _ | appendAnomaly _ => true
  | putVehicle _ _ | putMission _ _ | appendMaintenance _ => false

/-- The reading tables of one state with the other tables of another. -/
def Db.withReadingsOf (other db : Db) : Db :=
  { other with
    rawEvents := db.rawEvents
    vehicleCurrentState := db.vehicleCurrentState
    zoneCounts := db.zoneCounts
    anomalies := db.anomalies }

@[simp] theorem Db.vehicles_withReadingsOf (other db : Db) :
    (other.withReadingsOf db).vehicles = other.vehicles := rfl

@[simp] theorem Db.zoneCounts_withReadingsOf (other db : Db) :
    (other.withReadingsOf db).zoneCounts = db.zoneCounts := rfl

namespace Stmt

variable {q : Stmt} {first db : Db}

theorem reads_writes {r : q.Ret} {ws : List Write} (done : q.exec db = .ok (r, ws)) (w : Write)
    (member : w ∈ ws) : w.reading = q.reads := by
  have shape := execute_writes (exec_ok done).2 w member
  -- each table is written by statements of one of the two paths only
  cases w with
  | appendRaw row => rw [shape]; rfl
  | putCurrent v row => rw [shape]; rfl
  | putZone z n =>
    obtain ⟨zoneId, rfl, _⟩ := shape
    rfl
  | appendAnomaly row =>
    rcases shape with rfl | ⟨_, _, _, rfl⟩ <;> rfl
  | putVehicle v status =>
    rcases shape.1 with rfl | rfl <;> rfl
  | putMission id m =>
    obtain ⟨v, rfl, _⟩ := shape
    rfl
  | appendMaintenance row =>
    obtain ⟨v, missionId, reason, rfl, _⟩ := shape
    rfl

theorem locks_withReadingsOf (is : q.reads = true) :
    q.locks (first.withReadingsOf db) = q.locks db := by
  cases q <;> first | rfl | cases is

theorem exec_withReadingsOf (is : q.reads = true) :
    q.exec (first.withReadingsOf db) = q.exec db := by
  cases q <;> first | rfl | cases is

theorem locks_ofReadings (other : ¬q.reads = true) :
    q.locks (db.withReadingsOf first) = q.locks db := by
  cases q <;> first | rfl | exact (other rfl).elim

theorem exec_ofReadings (other : ¬q.reads = true) :
    q.exec (db.withReadingsOf first) = q.exec db := by
  cases q <;> first | rfl | exact (other rfl).elim

end Stmt

namespace Write

variable {w : Write} {first db : Db}

theorem apply_withReadingsOf (is : w.reading = true) :
    w.apply (first.withReadingsOf db) = first.withReadingsOf (w.apply db) := by
  cases w <;> first | rfl | cases is

theorem withReadingsOf_apply (other : ¬w.reading = true) :
    first.withReadingsOf (w.apply db) = first.withReadingsOf db := by
  cases w <;> first | rfl | exact (other rfl).elim

theorem apply_ofReadings (other : ¬w.reading = true) :
    w.apply (db.withReadingsOf first) = (w.apply db).withReadingsOf first := by
  cases w <;> first | rfl | exact (other rfl).elim

theorem ofReadings_apply (is : w.reading = true) :
    (w.apply db).withReadingsOf first = db.withReadingsOf first := by
  cases w <;> first | rfl | cases is

end Write

/-- A call of the telemetry path. -/
def Call.isReading : Call → Bool
  | .postTelemetry _ | .sweep _ => true
  | .postVehicleStatus _ _ => false

theorem persistTelemetry_reads (event : TelemetryEvent) :
    (persistTelemetry event).All fun q => q.reads = true := by
  rw [persistTelemetry_eq]
  refine .exec rfl fun prior => ?_
  split
  · exact .raise _
  · exact writeReading_all event (fun _ => rfl) (fun _ _ => rfl) (fun _ => rfl) (fun _ => rfl) _

theorem statusTransaction_writes (vehicleId : String) (update : VehicleStatusUpdate) :
    (statusTransaction vehicleId update).All fun q => q.reads = false := by
  unfold statusTransaction
  split
  · rw [transitionToFault_eq]
    refine .exec rfl fun row => ?_
    cases row with
    | none => exact .raise _
    | some status =>
      dsimp only
      split
      · exact .ret _
      · exact .exec rfl fun _ => .exec rfl fun _ => .exec rfl fun _ => .ret _
  · exact .exec rfl fun _ => .ret _

/-- Every call keeps to the statements of its path. -/
theorem transaction_reads (call : Call) :
    (transaction call).All fun q => q.reads = call.isReading := by
  cases call with
  | postTelemetry event => exact (persistTelemetry_reads event).bind fun _ => .ret _
  | postVehicleStatus vehicleId update =>
    exact (statusTransaction_writes vehicleId update).bind fun _ => .ret _
  | sweep now => exact .exec rfl fun _ => .ret _

namespace Service

/-- Seen from the telemetry path the status endpoint and the missions from outside do nothing. -/
theorem split_readings (first : Db) :
    Split postgres assignsMission closed (fun q => q.reads = true) (fun w => w.reading = true)
      fun db db' => db' = first.withReadingsOf db where
  locks is same := by
    subst same
    exact Stmt.locks_withReadingsOf is
  exec is same := by
    subst same
    exact Stmt.exec_withReadingsOf is
  writes done w member := by rw [Stmt.reads_writes done w member]
  kept is same := by
    subst same
    exact Write.apply_withReadingsOf is
  spared other same := by
    subst same
    exact (Write.withReadingsOf_apply other).symm
  -- a mission from outside is nothing to the tables of the readings
  outside allowed _ same := by
    left
    obtain ⟨id, m, _, _, _, rfl, _⟩ := allowed
    exact same

/-- Seen from the status endpoint telemetry does nothing. -/
theorem split_statuses (first : Db) :
    Split postgres assignsMission assignsMission (fun q => q.reads = false)
      (fun w => w.reading = false) fun db db' => db' = db.withReadingsOf first where
  locks is same := by
    subst same
    exact Stmt.locks_ofReadings (by simp [is])
  exec is same := by
    subst same
    exact Stmt.exec_ofReadings (by simp [is])
  writes done w member := by rw [Stmt.reads_writes done w member]
  kept is same := by
    subst same
    exact Write.apply_ofReadings (by simp [is])
  spared other same := by
    subst same
    exact (Write.ofReadings_apply (by simpa using other)).symm
  -- on the other side it is assigned there too, with fewer locks in its way
  outside allowed fewer same := by
    right
    obtain ⟨id, m, fresh, free, normal, rfl, unique⟩ := allowed
    subst same
    exact ⟨_, ⟨id, m, fresh, fun held => free (fewer _ held), normal, rfl, unique⟩, rfl⟩

/-- In every interleaving of all calls, the telemetry path is a run on its own: the same
readings, counters and anomalies, with every reply to it the same. -/
theorem telemetry_independent (db : Db) (s : State) (reached : ReachableWith assignsMission db s) :
    ∃ s', Reachable db s' ∧ s'.db = db.withReadingsOf s.db ∧
      replies s'.log = (replies s.log).filter fun reply => reply.1.isReading := by
  have reads (call : Call) : (transaction call).All fun q =>
      q.reads = true ↔ call.isReading = true :=
    (transaction_reads call).mono fun q same => by rw [same]
  obtain ⟨s', reached', projects⟩ := Foundations.Reachable.project (split_readings db) reads
    (rfl : db = db.withReadingsOf db) reached
  exact ⟨s', reached', projects.db, projects.log⟩

/-- A vehicle that enters an aisle while it is reported faulty. -/
def aisleReading : TelemetryEvent :=
  { vehicleId := "agv-1"
    status := .moving
    batteryPct := .finite 80
    recordedAt := .aware 0
    zoneEntered := some "aisle_a"
    vehicleId_length := agv1_length
    batteryPct_range := batteryPct_eighty
    speedMps_range := speedMps_standing }

/-- The reading and the fault of one vehicle, a statement of each in turn. -/
def readingDuringFault : List (Move Call) :=
  [.begin 0 (.postTelemetry aisleReading),
    .begin 1 (.postVehicleStatus "agv-1" ⟨.fault, some "lidar"⟩),
    .advance 0, .advance 1, .advance 0, .advance 1, .advance 0, .advance 1, .advance 0,
    .advance 1, .advance 1, .advance 0]

def bothCommitted (s : State) : Bool :=
  decide (s.db.zoneCounts.get? "aisle_a" = some 1) &&
    decide (s.db.vehicles.get? "agv-1" = some .fault) &&
    decide (((replies s.log).filter fun reply => reply.1.isReading).length = 1) &&
    decide (((replies s.log).filter fun reply => !reply.1.isReading).length = 1)

theorem bothCommitted_reached :
    ∃ s, ReachableWith assignsMission assignedDb s ∧
      s.db.zoneCounts.get? "aisle_a" = some 1 ∧ s.db.vehicles.get? "agv-1" = some .fault ∧
      ((replies s.log).filter fun reply => reply.1.isReading).length = 1 ∧
      ((replies s.log).filter fun reply => !reply.1.isReading).length = 1 := by
  obtain ⟨s, reached, both⟩ := exists_reachable assignsMission [0, 1] assignedDb
    readingDuringFault bothCommitted (by decide +kernel)
  simp only [bothCommitted, Bool.and_eq_true, decide_eq_true_eq] at both
  exact ⟨s, reached, both.1.1.1, both.1.1.2, both.1.2, both.2⟩

/-- Alone the reading counts its aisle all the same, while the vehicle keeps moving. -/
theorem telemetry_independent_aisle :
    ∃ s', Reachable assignedDb s' ∧ s'.db.zoneCounts.get? "aisle_a" = some 1 ∧
      s'.db.vehicles.get? "agv-1" = some .moving ∧ (replies s'.log).length = 1 := by
  obtain ⟨s, reached, counted, _, answered, _⟩ := bothCommitted_reached
  obtain ⟨s', reached', db, told⟩ := telemetry_independent assignedDb s reached
  have moving : assignedDb.vehicles.get? "agv-1" = some .moving := by decide +kernel
  refine ⟨s', reached', ?_, ?_, ?_⟩
  · rw [db, Db.zoneCounts_withReadingsOf]
    exact counted
  · rw [db, Db.vehicles_withReadingsOf]
    exact moving
  · rw [told]
    exact answered

/-- So is the status endpoint, next to the missions assigned from outside. -/
theorem statuses_independent (db : Db) (s : State) (reached : ReachableWith assignsMission db s) :
    ∃ s', ReachableWith assignsMission db s' ∧ s'.db = s.db.withReadingsOf db ∧
      replies s'.log = (replies s.log).filter fun reply => !reply.1.isReading := by
  have reads (call : Call) : (transaction call).All fun q =>
      q.reads = false ↔ (!call.isReading) = true :=
    (transaction_reads call).mono fun q same => by simp [same]
  obtain ⟨s', reached', projects⟩ := Foundations.Reachable.project (split_statuses db) reads
    (rfl : db = db.withReadingsOf db) reached
  exact ⟨s', reached', projects.db, projects.log⟩

/-- Alone the fault is reported all the same, and no aisle is entered. -/
theorem statuses_independent_fault :
    ∃ s', ReachableWith assignsMission assignedDb s' ∧
      s'.db.vehicles.get? "agv-1" = some .fault ∧
      s'.db.zoneCounts.get? "aisle_a" = some 0 ∧ (replies s'.log).length = 1 := by
  obtain ⟨s, reached, _, fault, _, answered⟩ := bothCommitted_reached
  obtain ⟨s', reached', db, told⟩ := statuses_independent assignedDb s reached
  have empty : assignedDb.zoneCounts.get? "aisle_a" = some 0 := by decide +kernel
  refine ⟨s', reached', ?_, ?_, ?_⟩
  · rw [db, Db.vehicles_withReadingsOf]
    exact fault
  · rw [db, Db.zoneCounts_withReadingsOf]
    exact empty
  · rw [told]
    exact answered

end Service

end FleetTelemetry
