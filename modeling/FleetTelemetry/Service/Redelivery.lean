import FleetTelemetry.Service.FaultHandling

/-!
# Redelivered status requests

The status route sends a fault to the guarded transition and every other status to a bare
update that reports the rows it matched. What a request answers when it is processed again
therefore depends on which of the two it went to.
-/

namespace FleetTelemetry

open Foundations

/-- The three tables a status request may write. -/
def SameFleet (db db' : Db) : Prop :=
  db'.vehicles = db.vehicles ∧ db'.missions = db.missions ∧
    db'.maintenanceRecords = db.maintenanceRecords

section Runs

theorem run_exec_clean {A : Type} {q : Stmt} {next : q.Ret → Transaction A} {db : Db} {r : q.Ret}
    {ws : List Write} (clean : q.clean = true) (answers : q.execute db = .ok (r, ws)) :
    postgres.run (.exec q next) db = postgres.run (next r) (postgres.writeAll ws db) := by
  have done : postgres.exec q db = .ok (r, ws) := (Stmt.exec_clean clean db).trans answers
  rw [Engine.run, done]

theorem run_exec_refused {A : Type} {q : Stmt} (next : q.Ret → Transaction A) (db : Db)
    (dirty : q.clean = false) : ∃ e, postgres.run (.exec q next) db = .error e ∧
      (e = .unicodeEncodeError ∨ e = .dataError) := by
  obtain ⟨e, failed, kind⟩ := Stmt.exec_refused dirty db
  have raised : postgres.exec q db = .error e := failed
  refine ⟨e, ?_, kind⟩
  rw [Engine.run, raised]

variable {vehicleId : String} {status : VehicleStatus} {db : Db}
  (clean : hasNul vehicleId = false)

include clean

/-- A vehicle already in fault: the lock is taken and nothing else is sent. -/
theorem run_transitionToFault_fault (found : db.vehicles.get? vehicleId = some .fault)
    (reason : Option PyStr) :
    postgres.run (transitionToFault vehicleId reason) db = .ok (false, db) := by
  have locked : (Stmt.lockVehicle vehicleId).execute db = .ok (some .fault, []) := by
    rw [Stmt.execute, found]
  rw [transitionToFault_eq, run_exec_clean (Stmt.clean_of_alone rfl clean) locked]
  rfl

theorem run_transitionToFault_other (found : db.vehicles.get? vehicleId = some status)
    (other : status ≠ .fault) (reason : Option PyStr) :
    postgres.run (transitionToFault vehicleId reason) db =
      postgres.run (flipToFault vehicleId reason) db := by
  have locked : (Stmt.lockVehicle vehicleId).execute db = .ok (some status, []) := by
    rw [Stmt.execute, found]
  rw [transitionToFault_eq, run_exec_clean (Stmt.clean_of_alone rfl clean) locked]
  simp only [if_neg other]
  rfl

omit clean in
theorem clean_insertMaintenance (missionId : Option Nat) (reason : Option PyStr) :
    (Stmt.insertMaintenance vehicleId missionId reason).clean =
      (!hasNul vehicleId && reason.all PyStr.storable) := by
  cases reason <;> simp [Stmt.clean, Stmt.texts]

/-- The maintenance record carries the reason, so one that cannot be stored fails the
transition. -/
theorem run_flipToFault_refused {reason : Option PyStr}
    (dirty : reason.all PyStr.storable = false) :
    ∃ e, postgres.run (flipToFault vehicleId reason) db = .error e ∧
      (e = .unicodeEncodeError ∨ e = .dataError) := by
  rw [flipToFault, run_exec_clean (Stmt.clean_of_alone rfl clean) rfl]
  exact run_exec_refused _ _ (by rw [clean_insertMaintenance, dirty, Bool.and_false])

theorem run_flipToFault_clean {reason : Option PyStr} (spelled : reason.all PyStr.storable = true)
    (present : vehicleId ∈ db.vehicles.keys) :
    postgres.run (flipToFault vehicleId reason) db =
      .ok (true, enterFault vehicleId reason db) := by
  -- only the insertion of the record sends a text besides the vehicle id
  have texts : ∀ missionId,
      (Stmt.insertMaintenance vehicleId missionId reason).clean = true := by
    intro missionId
    rw [clean_insertMaintenance, clean, spelled]
    rfl
  have done : ∃ db', postgres.run (flipToFault vehicleId reason) db = .ok (true, db') := by
    rw [flipToFault, run_exec_clean (Stmt.clean_of_alone rfl clean) rfl,
      run_exec_clean (texts _) rfl, run_exec_clean (Stmt.clean_of_alone rfl clean) rfl]
    exact ⟨_, rfl⟩
  obtain ⟨db', ran⟩ := done
  obtain ⟨answered, ws, replays, rfl⟩ := Replays.of_run ran
  have effect := flipToFault_effect (fun _ _ _ _ => Or.inl) vehicleId reason present replays
  rw [ran, effect.2]

theorem run_setVehicleStatus_present (present : vehicleId ∈ db.vehicles.keys)
    (status : VehicleStatus) :
    postgres.run (setVehicleStatus vehicleId status) db =
      .ok (true, { db with vehicles := db.vehicles.set vehicleId status }) := by
  have updated : (Stmt.setVehicleStatus vehicleId status).execute db =
      .ok ((1 : Nat), [.putVehicle vehicleId status]) := by
    simp [Stmt.execute, present]
  refine Eq.trans (run_exec_clean (Stmt.clean_of_alone rfl clean) updated) ?_
  rfl

end Runs

section Requests

variable {vehicleId : String} {update : VehicleStatusUpdate} {db : Db}

theorem serve_status_ok {applied : Bool} {db' : Db}
    (ran : postgres.run (statusTransaction vehicleId update) db = .ok (applied, db')) :
    serve db (.postVehicleStatus vehicleId update) =
      (postVehicleStatus vehicleId update (.ok applied), db') := by
  simp only [serve, transaction, Engine.run_bind, ran]
  rfl

theorem serve_status_error {e : PyError}
    (ran : postgres.run (statusTransaction vehicleId update) db = .error e) :
    serve db (.postVehicleStatus vehicleId update) =
      (postVehicleStatus vehicleId update (.error e), db) := by
  simp only [serve, transaction, Engine.run_bind, ran]
  rfl

variable (clean : hasNul vehicleId = false)

include clean

theorem serve_fault_already (fault : update.status = .fault)
    (found : db.vehicles.get? vehicleId = some .fault) :
    serve db (.postVehicleStatus vehicleId update) = (.ok false, db) := by
  have ran : postgres.run (statusTransaction vehicleId update) db = .ok (false, db) := by
    rw [statusTransaction, if_pos fault, run_transitionToFault_fault clean found]
  rw [serve_status_ok ran]
  simp [postVehicleStatus, fault]

theorem statusTransaction_other (fault : update.status = .fault)
    (present : vehicleId ∈ db.vehicles.keys) (other : db.vehicles.get? vehicleId ≠ some .fault) :
    postgres.run (statusTransaction vehicleId update) db =
      postgres.run (flipToFault vehicleId update.reason) db := by
  obtain ⟨status, found⟩ := Option.isSome_iff_exists.mp ((OrdMap.mem_keys_iff _ _).mp present)
  have normal : status ≠ .fault := by
    rintro rfl
    exact other found
  rw [statusTransaction, if_pos fault, run_transitionToFault_other clean found normal]

theorem serve_fault_refused (fault : update.status = .fault)
    (present : vehicleId ∈ db.vehicles.keys) (other : db.vehicles.get? vehicleId ≠ some .fault)
    (dirty : update.reason.all PyStr.storable = false) :
    serve db (.postVehicleStatus vehicleId update) = (.internalServerError, db) := by
  obtain ⟨e, failed, kind⟩ := @run_flipToFault_refused vehicleId db clean _ dirty
  have ran := (statusTransaction_other clean fault present other).trans failed
  rw [serve_status_error ran]
  rcases kind with rfl | rfl <;> rfl

theorem serve_fault_enter (fault : update.status = .fault)
    (present : vehicleId ∈ db.vehicles.keys) (other : db.vehicles.get? vehicleId ≠ some .fault)
    (spelled : update.reason.all PyStr.storable = true) :
    serve db (.postVehicleStatus vehicleId update) =
      (.ok true, enterFault vehicleId update.reason db) := by
  have ran := statusTransaction_other clean fault present other
  rw [run_flipToFault_clean clean spelled present] at ran
  rw [serve_status_ok ran]
  simp [postVehicleStatus]

theorem serve_status_set (normal : update.status ≠ .fault)
    (present : vehicleId ∈ db.vehicles.keys) :
    serve db (.postVehicleStatus vehicleId update) =
      (.ok true, { db with vehicles := db.vehicles.set vehicleId update.status }) := by
  have ran := run_setVehicleStatus_present clean present update.status
  rw [serve_status_ok (by rw [statusTransaction, if_neg normal, ran])]
  simp [postVehicleStatus]

end Requests

/-- A request processed again, after changes that left the vehicle's row alone, says and
does nothing exactly if it is a fault, and one that the first processing did not fail on. -/
theorem redelivery_noop_iff (db between : Db) (vehicleId : String) (update : VehicleStatusUpdate)
    (clean : hasNul vehicleId = false) (present : vehicleId ∈ db.vehicles.keys)
    (untouched : between.vehicles.get? vehicleId =
      (serve db (.postVehicleStatus vehicleId update)).2.vehicles.get? vehicleId) :
    ((serve between (.postVehicleStatus vehicleId update)).1 = .ok false ∧
      SameFleet between (serve between (.postVehicleStatus vehicleId update)).2) ↔
    update.status = .fault ∧ (update.reason.all PyStr.storable = true ∨
      db.vehicles.get? vehicleId = some .fault) := by
  by_cases fault : update.status = .fault
  · by_cases already : db.vehicles.get? vehicleId = some .fault
    · rw [serve_fault_already clean fault already, already] at untouched
      rw [serve_fault_already clean fault untouched]
      simp [SameFleet, fault, already]
    · by_cases spelled : update.reason.all PyStr.storable = true
      · rw [serve_fault_enter clean fault present already spelled] at untouched
        have entered : between.vehicles.get? vehicleId = some .fault := by
          simpa [enterFault] using untouched
        rw [serve_fault_already clean fault entered]
        simp [SameFleet, fault, spelled]
      · have dirty : update.reason.all PyStr.storable = false := Bool.eq_false_iff.mpr spelled
        rw [serve_fault_refused clean fault present already dirty] at untouched
        -- the first processing failed and left the row as it was, so the second fails too
        have present' : vehicleId ∈ between.vehicles.keys := by
          rw [OrdMap.mem_keys_iff, untouched, ← OrdMap.mem_keys_iff]
          exact present
        rw [serve_fault_refused clean fault present' (untouched ▸ already) dirty]
        simp [spelled, already]
  · rw [serve_status_set clean fault present] at untouched
    have present' : vehicleId ∈ between.vehicles.keys := by
      rw [OrdMap.mem_keys_iff, untouched, OrdMap.get?_set_self]
      rfl
    -- the update reports the row it matched, whether or not it changed it
    rw [serve_status_set clean fault present']
    simp [fault]

/-- A fault reported twice. -/
theorem redelivery_noop_iff_fault :
    (serve (serve Service.assignedDb (.postVehicleStatus "agv-1" ⟨.fault, some "lidar"⟩)).2
      (.postVehicleStatus "agv-1" ⟨.fault, some "lidar"⟩)).1 = .ok false := by
  have quiet := redelivery_noop_iff Service.assignedDb _ "agv-1" ⟨.fault, some "lidar"⟩ (by decide)
    (by decide) rfl
  exact (quiet.mpr ⟨rfl, .inl (by decide)⟩).1

/-- The vehicle was moving already, and is set moving twice more. -/
theorem redeliveredMoving_applied :
    (serve Service.assignedDb (.postVehicleStatus "agv-1" ⟨.moving, none⟩)).1 = .ok true ∧
    (serve (serve Service.assignedDb (.postVehicleStatus "agv-1" ⟨.moving, none⟩)).2
      (.postVehicleStatus "agv-1" ⟨.moving, none⟩)).1 = .ok true := by
  constructor <;> decide +kernel

end FleetTelemetry
