import FleetTelemetry.Foundations.ReadCommitted
import FleetTelemetry.Store.Schema

/-!
# The SQL statements

The statements of `persistence.py`: what each answers and writes when evaluated on a
state of the database, and which row locks and unique keys it takes there. A statement
that meets the key of an uncommitted insert waits for it like for a row lock.
-/

namespace FleetTelemetry

open Foundations

inductive Stmt where
  | selectPrior (vehicleId : String)
  | insertRaw (row : RawEvent)
  | upsertCurrent (vehicleId : String) (row : CurrentState)
  | incrementZone (zoneId : PyStr)
  | insertAnomaly (row : Anomaly)
  | insertCommsLoss (detail : String) (now cutoff : Int)
  | lockVehicle (vehicleId : String)
  | cancelActiveMission (vehicleId : String)
  | insertMaintenance (vehicleId : String) (missionId : Option Nat) (reason : Option PyStr)
  | setVehicleFault (vehicleId : String)
  | setVehicleStatus (vehicleId : String) (status : VehicleStatus)

/-- What the source reads of a statement's result: its first row, or its row count. -/
@[reducible] def Stmt.Ret : Stmt → Type
  | selectPrior _ => Option CurrentState
  | insertCommsLoss _ _ _ => Nat
  | lockVehicle _ => Option VehicleStatus
  | cancelActiveMission _ => Option Nat
  | setVehicleStatus _ _ => Nat
  | _ => Unit

inductive Write where
  | appendRaw (row : RawEvent)
  | putCurrent (vehicleId : String) (row : CurrentState)
  | putZone (zoneId : String) (entryCount : Int)
  | appendAnomaly (row : Anomaly)
  | putVehicle (vehicleId : String) (status : VehicleStatus)
  | putMission (missionId : Nat) (row : Mission)
  | appendMaintenance (row : MaintenanceRecord)
  deriving DecidableEq

inductive Key where
  | current (vehicleId : String)
  | zone (zoneId : String)
  | vehicle (vehicleId : String)
  | mission (missionId : Nat)
  | openMaintenance (vehicleId : String)
  deriving DecidableEq

def Write.apply (db : Db) : Write → Db
  | appendRaw row => { db with rawEvents := db.rawEvents ++ [row] }
  | putCurrent v row => { db with vehicleCurrentState := db.vehicleCurrentState.set v row }
  | putZone z n => { db with zoneCounts := db.zoneCounts.set z n }
  | appendAnomaly row => { db with anomalies := db.anomalies ++ [row] }
  | putVehicle v status => { db with vehicles := db.vehicles.set v status }
  | putMission id row => { db with missions := db.missions.set id row }
  | appendMaintenance row => { db with maintenanceRecords := db.maintenanceRecords ++ [row] }

/-- The vehicles the comms-loss sweep flags: silent since before the cutoff and not yet
flagged at or after their last reading. -/
def silentVehicles (cutoff : Int) (db : Db) : List String :=
  (db.vehicleCurrentState.entries.filter fun e =>
    decide (e.2.recordedAt < cutoff) &&
      !db.anomalies.any fun a => decide (a.vehicleId = e.1) &&
        decide (a.anomalyType = .commsLoss) && decide (e.2.recordedAt ≤ a.detectedAt)).map
    Prod.fst

namespace Stmt

/-- The text parameters a statement sends. -/
def texts : Stmt → List PyStr
  | selectPrior v => [v]
  | insertRaw row => [row.vehicleId]
  | upsertCurrent v _ => [v]
  | incrementZone z => [z]
  | insertAnomaly row =>
    row.vehicleId :: match row.detail with
      | some detail => detail.strings
      | none => []
  | insertCommsLoss detail _ _ => [detail]
  | lockVehicle v => [v]
  | cancelActiveMission v => [v]
  | insertMaintenance v _ reason => v :: reason.toList
  | setVehicleFault v => [v]
  | setVehicleStatus v _ => [v]

def execute : (q : Stmt) → Db → Except PyError (q.Ret × List Write)
  | selectPrior v, db =>
    match db.vehicleCurrentState.get? v with
    | none => .ok (none, [])
    | some row => if readable row.recordedAt then .ok (some row, []) else .error .dataError
  | insertRaw row, _ => .ok ((), [.appendRaw row])
  | upsertCurrent v row, _ => .ok ((), [.putCurrent v row])
  | incrementZone z, db =>
    match db.zoneCounts.get? z.text with
    -- an `UPDATE` of a zone without a row matches nothing, and is no error
    | none => .ok ((), [])
    | some n => if maxInteger < n + 1 then .error .numericValueOutOfRange
        else .ok ((), [.putZone z.text (n + 1)])
  | insertAnomaly row, _ => .ok ((), [.appendAnomaly row])
  | insertCommsLoss detail now cutoff, db =>
    let silent := silentVehicles cutoff db
    .ok (silent.length,
      silent.map fun v => .appendAnomaly ⟨v, .commsLoss, some (.silence detail), now⟩)
  | lockVehicle v, db => .ok (db.vehicles.get? v, [])
  | cancelActiveMission v, db =>
    .ok ((db.activeMissions v).head?,
      (db.activeMissions v).map fun id => .putMission id ⟨v, .cancelled⟩)
  -- `ON CONFLICT DO NOTHING` on the index of open records
  | insertMaintenance v missionId reason, db =>
    .ok ((), if (db.openRecords v).isEmpty
      then [.appendMaintenance ⟨v, missionId, reason.map PyStr.text, false⟩] else [])
  | setVehicleFault v, db =>
    .ok ((), if db.vehicles.has v then [.putVehicle v .fault] else [])
  | setVehicleStatus v status, db =>
    if db.vehicles.has v then .ok ((1 : Nat), [.putVehicle v status]) else .ok ((0 : Nat), [])

/-- psycopg passes on every text parameter. -/
def clean (q : Stmt) : Bool := q.texts.all PyStr.storable

/-- psycopg refuses a text parameter before it sends the statement. -/
def exec (q : Stmt) (db : Db) : Except PyError (q.Ret × List Write) :=
  match q.texts.findSome? PyStr.refusal with
  | some e => .error e
  | none => q.execute db

-- The reads take no lock, and an append-only insert conflicts with nothing.
def locks : Stmt → Db → List Key
  | upsertCurrent v _, _ => [.current v]
  | incrementZone z, db => if db.zoneCounts.has z.text then [.zone z.text] else []
  | lockVehicle v, db => if db.vehicles.has v then [.vehicle v] else []
  | cancelActiveMission v, db => (db.activeMissions v).map .mission
  | insertMaintenance v _ _, db => if (db.openRecords v).isEmpty then [.openMaintenance v] else []
  | setVehicleFault v, db => if db.vehicles.has v then [.vehicle v] else []
  | setVehicleStatus v _, db => if db.vehicles.has v then [.vehicle v] else []
  | _, _ => []

theorem refusal_none_iff (q : Stmt) :
    q.texts.findSome? PyStr.refusal = none ↔ q.clean = true := by
  simp only [clean, List.findSome?_eq_none_iff, List.all_eq_true, PyStr.refusal_eq_none]

/-- A statement whose one text is an id. -/
theorem clean_alone {q : Stmt} {id : String} (alone : q.texts = [.ofString id]) :
    q.clean = !hasNul id := by
  rw [clean, alone, List.all_cons, List.all_nil, Bool.and_true, PyStr.storable_ofString]

theorem clean_of_alone {q : Stmt} {id : String} (alone : q.texts = [.ofString id])
    (plain : hasNul id = false) : q.clean = true := by
  rw [clean_alone alone, plain]
  rfl

theorem exec_clean {q : Stmt} (clean : q.clean = true) (db : Db) : q.exec db = q.execute db := by
  simp only [exec, (refusal_none_iff q).mpr clean]

/-- Neither refusal is an exception that a handler knows. -/
theorem exec_refused {q : Stmt} (dirty : q.clean = false) (db : Db) :
    ∃ e, q.exec db = .error e ∧ (e = .unicodeEncodeError ∨ e = .dataError) := by
  cases refused : q.texts.findSome? PyStr.refusal with
  | none =>
    rw [refusal_none_iff, dirty] at refused
    cases refused
  | some e =>
    obtain ⟨text, _, is⟩ := List.exists_of_findSome?_eq_some refused
    refine ⟨e, ?_, PyStr.refusal_cases is⟩
    simp only [exec, refused]

theorem exec_ok {q : Stmt} {db : Db} {r : q.Ret} {ws : List Write}
    (done : q.exec db = .ok (r, ws)) : q.clean = true ∧ q.execute db = .ok (r, ws) := by
  unfold exec at done
  split at done
  · cases done
  next clean => exact ⟨(refusal_none_iff q).mp clean, done⟩

/-- The prior reading is the one stored, and it could be read back. -/
theorem execute_selectPrior {v : String} {db : Db} {r : Option CurrentState} {ws : List Write}
    (done : (selectPrior v).execute db = .ok (r, ws)) : r = db.vehicleCurrentState.get? v ∧
      ws = [] ∧ ∀ row, r = some row → readable row.recordedAt = true := by
  simp only [execute] at done
  split at done
  -- no row, or one whose instant psycopg could read
  next missing =>
    cases done
    refine ⟨missing.symm, rfl, ?_⟩
    rintro row ⟨⟩
  next row found =>
    split at done
    next years =>
      cases done
      refine ⟨found.symm, rfl, ?_⟩
      rintro _ ⟨rfl⟩
      exact years
    · cases done

theorem selectPrior_readable {v : String} {db : Db}
    (years : ∀ row, db.vehicleCurrentState.get? v = some row → readable row.recordedAt = true) :
    (selectPrior v).execute db = .ok (db.vehicleCurrentState.get? v, []) := by
  cases found : db.vehicleCurrentState.get? v with
  | none => simp [execute, found]
  | some row => simp [execute, found, years row found]

end Stmt

/-- The database server as an engine of read-committed transactions. -/
def postgres : Engine Db Stmt Stmt.Ret Write Key PyError where
  write := Write.apply
  exec := Stmt.exec
  locks := Stmt.locks

abbrev Transaction (A : Type) := Txn Stmt Stmt.Ret PyError A

/-- `conn.execute`. -/
abbrev execute (q : Stmt) : Transaction q.Ret := Txn.stmt q

end FleetTelemetry
