import FleetTelemetry.Foundations.LastWrite
import FleetTelemetry.Foundations.OrdMap
import FleetTelemetry.Store.Values

/-!
# The dashboard stores

The three keyed stores of `App` with their seeds and patches, and the fold of one event
into them. The loading message, the announcement and the connection badge, which no store
reads, are left out.
-/

namespace FleetTelemetry.Dashboard

open Foundations

structure VehicleSnapshotRow where
  vehicleId : String
  status : String
  batteryPct : Double
  deriving DecidableEq, Repr

structure VehicleStateChangedPayload where
  vehicleId : String
  status : String
  batteryPct : Double
  deriving DecidableEq, Repr

structure AnomalyDetectedPayload where
  vehicleId : String
  anomalyType : String
  detail : Option String
  detectedAt : String
  deriving DecidableEq, Repr

abbrev AnomalySnapshotRow := AnomalyDetectedPayload

structure ZoneCountChangedPayload where
  zoneId : String
  entryCount : Int
  deriving DecidableEq, Repr

/-- The entries of the snapshot object, whose keys are distinct. -/
abbrev ZoneCountsSnapshot := List (String × Int)

inductive PatchEvent where
  | vehicleStateChanged (payload : VehicleStateChangedPayload)
  | anomalyDetected (payload : AnomalyDetectedPayload)
  | zoneCountChanged (payload : ZoneCountChangedPayload)
  deriving DecidableEq, Repr

structure Vehicle where
  vehicleId : String
  status : String
  batteryPct : Double
  deriving DecidableEq, Repr

abbrev VehicleMap := OrdMap String Vehicle
abbrev AnomalyMap := OrdMap String AnomalyDetectedPayload
abbrev ZoneMap := OrdMap String Int

/-- A patch of a store whose keys are fixed by its seed: an unknown key changes nothing. -/
def patchKnown {V : Type} (current : OrdMap String V) (key : String) (value : V) :
    OrdMap String V :=
  if current.has key then current.set key value else current

def seedVehicles (snapshot : List VehicleSnapshotRow) : VehicleMap :=
  snapshot.foldl
    (fun map row => map.set row.vehicleId ⟨row.vehicleId, row.status, row.batteryPct⟩) .empty

def applyVehiclePatch (current : VehicleMap) (patch : VehicleStateChangedPayload) : VehicleMap :=
  patchKnown current patch.vehicleId ⟨patch.vehicleId, patch.status, patch.batteryPct⟩

def seedZones (snapshot : ZoneCountsSnapshot) : ZoneMap :=
  snapshot.foldl (fun map entry => map.set entry.1 entry.2) .empty

def applyZonePatch (current : ZoneMap) (patch : ZoneCountChangedPayload) : ZoneMap :=
  patchKnown current patch.zoneId patch.entryCount

def seedAnomalies (snapshot : List AnomalySnapshotRow) : AnomalyMap :=
  snapshot.foldl (fun map row => map.set row.vehicleId row) .empty

-- Any vehicle may show an anomaly, so this store takes patches of keys it has not seen.
def applyAnomalyPatch (current : AnomalyMap) (patch : AnomalyDetectedPayload) : AnomalyMap :=
  current.set patch.vehicleId patch

structure App where
  vehicles : VehicleMap
  anomalies : AnomalyMap
  zones : ZoneMap

def App.initial : App := ⟨.empty, .empty, .empty⟩

/-- The `subscribe` handler. -/
def App.onEvent (app : App) : PatchEvent → App
  | .vehicleStateChanged payload =>
    { app with vehicles := applyVehiclePatch app.vehicles payload }
  | .anomalyDetected payload =>
    { app with anomalies := applyAnomalyPatch app.anomalies payload }
  | .zoneCountChanged payload => { app with zones := applyZonePatch app.zones payload }

section Patches

variable {V : Type}

theorem keys_patchKnown (current : OrdMap String V) (key : String) (value : V) :
    (patchKnown current key value).keys = current.keys := by
  unfold patchKnown
  split
  next known => exact OrdMap.keys_set_of_mem _ _ _ ((OrdMap.has_iff _ _).mp known)
  · rfl

theorem get?_patchKnown {current : OrdMap String V} {k : String} (known : k ∈ current.keys)
    (key : String) (value : V) :
    (patchKnown current key value).get? k = if k = key then some value else current.get? k := by
  unfold patchKnown
  split
  · exact OrdMap.get?_set current key k value
  next unknown =>
    rw [OrdMap.has_iff] at unknown
    have apart : k ≠ key := fun same => unknown (same ▸ known)
    rw [if_neg apart]

/-- What a patch means for the vehicle's row in the store. -/
def PatchEvent.vehicle (vehicleId : String) : PatchEvent → Option Vehicle
  | .vehicleStateChanged payload => if vehicleId = payload.vehicleId
      then some ⟨payload.vehicleId, payload.status, payload.batteryPct⟩ else none
  | _ => none

def PatchEvent.zone (zoneId : String) : PatchEvent → Option Int
  | .zoneCountChanged payload =>
    if zoneId = payload.zoneId then some payload.entryCount else none
  | _ => none

def PatchEvent.anomaly (vehicleId : String) : PatchEvent → Option AnomalyDetectedPayload
  | .anomalyDetected payload => if vehicleId = payload.vehicleId then some payload else none
  | _ => none

/-- The entry of a store that a patch is for. -/
inductive Cell where
  | vehicle (vehicleId : String)
  | anomaly (vehicleId : String)
  | zone (zoneId : String)
  deriving DecidableEq, Repr

def PatchEvent.cell : PatchEvent → Cell
  | .vehicleStateChanged payload => .vehicle payload.vehicleId
  | .anomalyDetected payload => .anomaly payload.vehicleId
  | .zoneCountChanged payload => .zone payload.zoneId

theorem PatchEvent.vehicle_of_cell {event : PatchEvent} {vehicleId : String}
    (other : event.cell ≠ .vehicle vehicleId) : event.vehicle vehicleId = none := by
  cases event with
  | vehicleStateChanged payload => exact if_neg fun same => other (congrArg Cell.vehicle same.symm)
  | anomalyDetected | zoneCountChanged => rfl

theorem PatchEvent.anomaly_of_cell {event : PatchEvent} {vehicleId : String}
    (other : event.cell ≠ .anomaly vehicleId) : event.anomaly vehicleId = none := by
  cases event with
  | anomalyDetected payload => exact if_neg fun same => other (congrArg Cell.anomaly same.symm)
  | vehicleStateChanged | zoneCountChanged => rfl

theorem PatchEvent.zone_of_cell {event : PatchEvent} {zoneId : String}
    (other : event.cell ≠ .zone zoneId) : event.zone zoneId = none := by
  cases event with
  | zoneCountChanged payload => exact if_neg fun same => other (congrArg Cell.zone same.symm)
  | anomalyDetected | vehicleStateChanged => rfl

theorem mem_vehicles_onEvent (app : App) (event : PatchEvent) (vehicleId : String) :
    vehicleId ∈ (app.onEvent event).vehicles.keys ↔ vehicleId ∈ app.vehicles.keys := by
  cases event with
  | vehicleStateChanged payload => rw [App.onEvent, applyVehiclePatch, keys_patchKnown]
  | anomalyDetected | zoneCountChanged => exact Iff.rfl

theorem mem_zones_onEvent (app : App) (event : PatchEvent) (zoneId : String) :
    zoneId ∈ (app.onEvent event).zones.keys ↔ zoneId ∈ app.zones.keys := by
  cases event with
  | zoneCountChanged payload => rw [App.onEvent, applyZonePatch, keys_patchKnown]
  | anomalyDetected | vehicleStateChanged => exact Iff.rfl

theorem vehicles_onEvent {app : App} {vehicleId : String}
    (known : vehicleId ∈ app.vehicles.keys) (event : PatchEvent) :
    (app.onEvent event).vehicles.get? vehicleId =
      (event.vehicle vehicleId).or (app.vehicles.get? vehicleId) := by
  cases event with
  | vehicleStateChanged payload =>
    rw [App.onEvent, applyVehiclePatch, get?_patchKnown known, PatchEvent.vehicle]
    split <;> rfl
  | anomalyDetected | zoneCountChanged => rfl

theorem zones_onEvent {app : App} {zoneId : String} (known : zoneId ∈ app.zones.keys)
    (event : PatchEvent) :
    (app.onEvent event).zones.get? zoneId =
      (event.zone zoneId).or (app.zones.get? zoneId) := by
  cases event with
  | zoneCountChanged payload =>
    rw [App.onEvent, applyZonePatch, get?_patchKnown known, PatchEvent.zone]
    split <;> rfl
  | anomalyDetected | vehicleStateChanged => rfl

theorem anomalies_onEvent (app : App) (event : PatchEvent) (vehicleId : String) :
    (app.onEvent event).anomalies.get? vehicleId =
      (event.anomaly vehicleId).or (app.anomalies.get? vehicleId) := by
  cases event with
  | anomalyDetected payload =>
    rw [App.onEvent, applyAnomalyPatch, OrdMap.get?_set, PatchEvent.anomaly]
    split <;> rfl
  | vehicleStateChanged | zoneCountChanged => rfl

theorem mem_anomalies_onEvent (app : App) (event : PatchEvent) (vehicleId : String) :
    vehicleId ∈ (app.onEvent event).anomalies.keys ↔
      vehicleId ∈ app.anomalies.keys ∨ event.cell = .anomaly vehicleId := by
  cases event with
  | anomalyDetected payload =>
    rw [App.onEvent, applyAnomalyPatch, OrdMap.mem_keys_set, PatchEvent.cell, Cell.anomaly.injEq,
      or_comm, eq_comm]
  | vehicleStateChanged | zoneCountChanged => simp [App.onEvent, PatchEvent.cell]

end Patches

end FleetTelemetry.Dashboard
