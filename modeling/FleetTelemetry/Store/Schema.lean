import FleetTelemetry.Foundations.OrdMap
import FleetTelemetry.Store.Models

/-!
# The database schema

The tables of the migrations as one record. A table read by primary key is an ordered
map over that key; an append-only table is the list of its rows. Columns that only carry
a clock reading or a surrogate id (`received_at`, `updated_at`, `created_at`,
`opened_at`, the identity columns no statement returns) are left out.
-/

namespace FleetTelemetry

open Foundations

structure RawEvent where
  vehicleId : String
  status : VehicleStatus
  batteryPct : Double
  recordedAt : Int
  deriving DecidableEq, Repr

/-- A row of `vehicle_current_state`, which is also the prior reading a new event is
compared with. -/
structure CurrentState where
  status : VehicleStatus
  batteryPct : Double
  speedMps : Double
  posX : Option Double
  posY : Option Double
  recordedAt : Int
  deriving DecidableEq, Repr

inductive AnomalyType where
  | faultStatus
  | errorCodes
  | lowBattery
  | overspeed
  | stuck
  | teleport
  | batteryRising
  | commsLoss
  deriving DecidableEq, Repr

def AnomalyType.text : AnomalyType → String
  | faultStatus => "fault_status"
  | errorCodes => "error_codes"
  | lowBattery => "low_battery"
  | overspeed => "overspeed"
  | stuck => "stuck"
  | teleport => "teleport"
  | batteryRising => "battery_rising"
  | commsLoss => "comms_loss"

/-- The detail text of an anomaly before its numbers are printed. -/
inductive Detail where
  | errorCodes (codes : List PyStr)
  | batteryPct (batteryPct : Double)
  | speedMps (speedMps : Double)
  | dwell (speedMps : Option Double) (dtMicros : Int)
  | impliedMpsSq (square : Double)
  | rising (before after : Double)
  | silence (text : String)
  deriving DecidableEq, Repr

/-- The number formats of the f-strings: `repr` of a float, `repr` of a duration in
seconds, and a square root to three decimals. -/
structure NumberText where
  repr : Double → String
  seconds : Int → String
  sqrtFixed3 : Double → String

def Detail.text (print : NumberText) : Detail → String
  | errorCodes codes => (PyStr.join "," codes).text
  | batteryPct b => "battery_pct=" ++ print.repr b
  | speedMps v => "speed_mps=" ++ print.repr v
  | dwell v dt =>
    "speed_mps=" ++ v.elim "0" print.repr ++ ", dt=" ++ print.seconds dt ++ "s"
  | impliedMpsSq sq => "implied_mps=" ++ print.sqrtFixed3 sq
  | rising before after => print.repr before ++ " -> " ++ print.repr after
  | silence text => text

/-- The text parameters a detail comes from. A printed number is refused by nothing. -/
def Detail.strings : Detail → List PyStr
  | errorCodes codes => [PyStr.join "," codes]
  | silence text => [text]
  | _ => []

structure Anomaly where
  vehicleId : String
  anomalyType : AnomalyType
  detail : Option Detail
  detectedAt : Int
  deriving DecidableEq, Repr

inductive MissionStatus where
  | active
  | cancelled
  | completed
  deriving DecidableEq, Repr

structure Mission where
  vehicleId : String
  status : MissionStatus
  deriving DecidableEq, Repr

structure MaintenanceRecord where
  vehicleId : String
  missionId : Option Nat
  reason : Option String
  resolved : Bool
  deriving DecidableEq, Repr

structure Db where
  rawEvents : List RawEvent
  vehicleCurrentState : OrdMap String CurrentState
  zoneCounts : OrdMap String Int
  anomalies : List Anomaly
  vehicles : OrdMap String VehicleStatus
  missions : OrdMap Nat Mission
  maintenanceRecords : List MaintenanceRecord

/-- The migrated database before the zones are seeded. -/
def Db.migrated : Db :=
  { rawEvents := []
    vehicleCurrentState := .empty
    zoneCounts := .empty
    anomalies := []
    vehicles := .empty
    missions := .empty
    maintenanceRecords := [] }

/-- `seed_zones`: one row at zero for every zone that has none yet. -/
def seedZones (db : Db) : Db :=
  { db with
    zoneCounts := zones.foldl
      (fun counts zone => if counts.has zone then counts else counts.set zone 0) db.zoneCounts }

def Db.seeded : Db := seedZones .migrated

/-- The largest value of an `INTEGER` column. -/
def maxInteger : Int := 2147483647

def Mission.activeFor (vehicleId : String) (m : Mission) : Bool :=
  decide (m.vehicleId = vehicleId) && decide (m.status = .active)

def MaintenanceRecord.openFor (vehicleId : String) (r : MaintenanceRecord) : Bool :=
  decide (r.vehicleId = vehicleId) && !r.resolved

namespace Db

/-- The ids of the vehicle's active missions; the unique index admits at most one. -/
def activeMissions (db : Db) (vehicleId : String) : List Nat :=
  (db.missions.entries.filter fun e => Mission.activeFor vehicleId e.2).map Prod.fst

def openRecords (db : Db) (vehicleId : String) : List MaintenanceRecord :=
  db.maintenanceRecords.filter (MaintenanceRecord.openFor vehicleId)

/-- `uq_active_mission_per_vehicle` and `uq_open_maintenance_per_vehicle`. -/
structure UniqueIndexes (db : Db) : Prop where
  activeMission : ∀ v, (db.activeMissions v).length ≤ 1
  openMaintenance : ∀ v, (db.openRecords v).length ≤ 1

end Db

end FleetTelemetry
