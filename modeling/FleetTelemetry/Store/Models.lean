import FleetTelemetry.Store.Values

/-!
# The event schema

The validated request bodies of `models.py` with its statuses, zones and thresholds.
A `TelemetryEvent` carries the proof of its declared field constraints, so every value
of the type is one that request validation lets through. A `str` with a length bound is
checked to be Unicode text; one without is passed on as it is.
-/

namespace FleetTelemetry

inductive VehicleStatus where
  | idle
  | moving
  | charging
  | fault
  deriving DecidableEq, Repr

def VehicleStatus.text : VehicleStatus → String
  | idle => "idle"
  | moving => "moving"
  | charging => "charging"
  | fault => "fault"

/-- The statuses the fleet aggregate reports, in order. -/
def statuses : List VehicleStatus := [.idle, .moving, .charging, .fault]

theorem mem_statuses (s : VehicleStatus) : s ∈ statuses := by
  cases s <;> decide

def zones : List String :=
  ["inbound_dock_a", "inbound_dock_b", "receiving_staging", "aisle_a", "aisle_b", "aisle_c",
    "high_bay_1", "high_bay_2", "bulk_storage", "pick_zone_1", "pick_zone_2", "pack_station",
    "sort_belt", "outbound_dock_a", "outbound_dock_b", "shipping_staging", "charging_bay_1",
    "charging_bay_2", "charging_bay_3", "maintenance_bay"]

def lowBatteryPct : Double := .finite 15
def overspeedMps : Double := .finite 5
def stuckSpeedMps : Double := .finite (1 / 10)

-- The two durations are compared with microsecond differences.
def stuckMinMicros : Int := 10 * 1000000
def commsLossTimeoutMicros : Int := 5 * 1000000

/-- `TELEPORT_MPS`, squared to compare with a squared implied speed. -/
def teleportMpsSq : Double := .finite (15 * 15)

structure VehicleStatusUpdate where
  status : VehicleStatus
  reason : Option PyStr := none
  deriving DecidableEq, Repr

/-- `Field(ge=0, le=100)`: NaN is within no bound. -/
abbrev BatteryBounds (batteryPct : Double) : Prop :=
  (Double.finite 0).le batteryPct = true ∧ batteryPct.le (.finite 100) = true

structure TelemetryEvent where
  vehicleId : String
  status : VehicleStatus
  batteryPct : Double
  recordedAt : Datetime
  zoneEntered : Option PyStr := none
  /-- Without one the default stands, which is the `int` 0 and stays one. -/
  speedMps : Option Double := none
  errorCodes : List PyStr := []
  posX : Option Double := none
  posY : Option Double := none
  vehicleId_length : 1 ≤ vehicleId.length ∧ vehicleId.length ≤ 64
  batteryPct_range : BatteryBounds batteryPct
  speedMps_range : (Double.finite 0).le (speedMps.getD (.finite 0)) = true

/-- `speed_mps`, with its default. -/
def TelemetryEvent.speed (event : TelemetryEvent) : Double := event.speedMps.getD (.finite 0)

/-- The zone entered, as the text its row is looked up by. -/
def TelemetryEvent.zone (event : TelemetryEvent) : Option String :=
  event.zoneEntered.map PyStr.text

section Bounds

-- the bounds of the readings the runs below are made of

theorem agv1_length : 1 ≤ "agv-1".length ∧ "agv-1".length ≤ 64 := by decide

theorem batteryPct_eighty : BatteryBounds (.finite 80) := by decide +kernel

theorem speedMps_standing :
    (Double.finite 0).le ((none : Option Double).getD (.finite 0)) = true := by decide +kernel

end Bounds

end FleetTelemetry
