import FleetTelemetry.Dashboard.Changes

/-!
# Snapshots

The three reads the stores are seeded from, and what a store and the database hold for
one key after a list of writes.
-/

namespace FleetTelemetry.Dashboard

open Foundations
open Cdc (Numerals)

def vehicleSnapshotRow (vehicleId : String) (row : CurrentState) : VehicleSnapshotRow :=
  ⟨vehicleId, row.status.text, row.batteryPct⟩

/-- `current_vehicle_states`; the collation of the database orders the rows. -/
def currentVehicleStates (collate : String → String → Bool) (db : Db) :
    List VehicleSnapshotRow :=
  (db.vehicleCurrentState.entries.mergeSort fun a b => collate a.1 b.1).map fun e =>
    vehicleSnapshotRow e.1 e.2

def anomalySnapshotRow (texts : Texts) (row : Anomaly) : AnomalySnapshotRow :=
  ⟨row.vehicleId, row.anomalyType.text, row.detail.map (Detail.text texts.details),
    texts.isoformat row.detectedAt⟩

/-- The rows `latest_anomaly_per_vehicle` may return: `DISTINCT ON` picks any of a vehicle's
anomalies with the latest `detected_at`. -/
structure LatestAnomalies (db : Db) (rows : List Anomaly) : Prop where
  distinct : (rows.map Anomaly.vehicleId).Nodup
  stored : ∀ row ∈ rows, row ∈ db.anomalies
  latest : ∀ a ∈ db.anomalies, ∃ row ∈ rows,
    row.vehicleId = a.vehicleId ∧ a.detectedAt ≤ row.detectedAt

/-- The vehicle shown for a row. -/
def Vehicle.ofRow (vehicleId : String) (row : CurrentState) : Vehicle :=
  ⟨vehicleId, row.status.text, row.batteryPct⟩

theorem get?_seedVehicles (collate : String → String → Bool) (db : Db) (vehicleId : String) :
    (seedVehicles (currentVehicleStates collate db)).get? vehicleId =
      (db.vehicleCurrentState.get? vehicleId).map (Vehicle.ofRow vehicleId) := by
  have sorted : (db.vehicleCurrentState.entries.mergeSort fun a b => collate a.1 b.1).Perm
      db.vehicleCurrentState.entries := List.mergeSort_perm ..
  unfold currentVehicleStates
  generalize db.vehicleCurrentState.entries.mergeSort _ = rows at sorted
  -- the order of the rows does not matter, as their primary keys are distinct
  have unique : (rows.map Prod.fst).Nodup :=
    (sorted.map Prod.fst).nodup_iff.mpr db.vehicleCurrentState.nodup
  have entries : seedVehicles (rows.map fun e => vehicleSnapshotRow e.1 e.2) =
      (rows.map fun e => (e.1, Vehicle.ofRow e.1 e.2)).foldl
        (fun map e => map.set e.1 e.2) .empty := by
    rw [seedVehicles, List.foldl_map, List.foldl_map]
    rfl
  have unique' : ((rows.map fun e => (e.1, Vehicle.ofRow e.1 e.2)).map Prod.fst).Nodup := by
    rw [List.map_map]
    exact unique
  rw [entries, OrdMap.get?_foldl_entries _ unique', OrdMap.lookup_map_value Vehicle.ofRow,
    OrdMap.lookup_perm db.vehicleCurrentState.nodup sorted, OrdMap.get?_empty, Option.or_none]
  rfl

theorem mem_seedVehicles (collate : String → String → Bool) (db : Db) (vehicleId : String) :
    vehicleId ∈ (seedVehicles (currentVehicleStates collate db)).keys ↔
      vehicleId ∈ db.vehicleCurrentState.keys := by
  rw [OrdMap.mem_keys_iff, OrdMap.mem_keys_iff, get?_seedVehicles, Option.isSome_map]

/-- The store lists the vehicles as the snapshot does. -/
theorem keys_seedVehicles (collate : String → String → Bool) (db : Db) :
    (seedVehicles (currentVehicleStates collate db)).keys =
      (currentVehicleStates collate db).map VehicleSnapshotRow.vehicleId := by
  have sorted : ((currentVehicleStates collate db).map VehicleSnapshotRow.vehicleId).Perm
      db.vehicleCurrentState.keys := by
    rw [currentVehicleStates, List.map_map]
    exact (List.mergeSort_perm ..).map _
  rw [seedVehicles, OrdMap.keys_foldl_rows]
  exact OrdMap.eraseDups_of_nodup (sorted.nodup_iff.mpr db.vehicleCurrentState.nodup)

theorem mem_currentVehicleStates {collate : String → String → Bool} {db : Db}
    {row : VehicleSnapshotRow} (member : row ∈ currentVehicleStates collate db) :
    row.vehicleId ∈ (seedVehicles (currentVehicleStates collate db)).keys := by
  rw [keys_seedVehicles]
  exact List.mem_map_of_mem member

theorem get?_seedZones (db : Db) (zoneId : String) :
    (seedZones (zoneEntryCounts db).entries).get? zoneId = db.zoneCounts.get? zoneId := by
  rw [seedZones, OrdMap.get?_foldl_entries _ (zoneEntryCounts db).nodup, OrdMap.get?_empty,
    Option.or_none]
  rfl

theorem mem_seedZones (db : Db) (zoneId : String) :
    zoneId ∈ (seedZones (zoneEntryCounts db).entries).keys ↔ zoneId ∈ db.zoneCounts.keys := by
  rw [OrdMap.mem_keys_iff, OrdMap.mem_keys_iff, get?_seedZones]

theorem keys_seedZones (db : Db) :
    (seedZones (zoneEntryCounts db).entries).keys = db.zoneCounts.keys := by
  rw [seedZones, OrdMap.keys_foldl_rows]
  exact OrdMap.eraseDups_of_nodup db.zoneCounts.nodup

theorem mem_zoneEntryCounts {db : Db} {entry : String × Int}
    (member : entry ∈ (zoneEntryCounts db).entries) :
    entry.1 ∈ (seedZones (zoneEntryCounts db).entries).keys := by
  rw [keys_seedZones]
  exact List.mem_map_of_mem member

/-- A vehicle shows the anomaly the snapshot has for it. -/
theorem get?_seedAnomalies (texts : Texts) {rows : List Anomaly}
    (distinct : (rows.map Anomaly.vehicleId).Nodup) {row : Anomaly} (member : row ∈ rows) :
    (seedAnomalies (rows.map (anomalySnapshotRow texts))).get? row.vehicleId =
      some (anomalySnapshotRow texts row) := by
  have entries : seedAnomalies (rows.map (anomalySnapshotRow texts)) =
      (rows.map fun row => (row.vehicleId, anomalySnapshotRow texts row)).foldl
        (fun map e => map.set e.1 e.2) .empty := by
    rw [seedAnomalies, List.foldl_map, List.foldl_map]
    rfl
  -- one row a vehicle, so none is written over by a later one
  have unique : ((rows.map fun row => (row.vehicleId, anomalySnapshotRow texts row)).map
      Prod.fst).Nodup := by
    rw [List.map_map]
    exact distinct
  have found := OrdMap.lookup_of_mem unique
    (List.mem_map.mpr ⟨row, member, rfl⟩ : (row.vehicleId, anomalySnapshotRow texts row) ∈ _)
  rw [entries, OrdMap.get?_foldl_entries _ unique, found]
  rfl

end FleetTelemetry.Dashboard

namespace FleetTelemetry

open Foundations Dashboard
open Cdc (Numerals)

namespace Write

/-- What a write puts into the vehicle's row. -/
def current (vehicleId : String) : Write → Option CurrentState
  | putCurrent v row => if vehicleId = v then some row else none
  | _ => none

def zone (zoneId : String) : Write → Option Int
  | putZone z n => if zoneId = z then some n else none
  | _ => none

theorem current_patch (texts : Texts) (vehicleId : String) (w : Write) :
    (w.patch texts).bind (PatchEvent.vehicle vehicleId) =
      (w.current vehicleId).map (Vehicle.ofRow vehicleId) := by
  cases w with
  | putCurrent v row =>
    rw [patch, Option.bind_some, PatchEvent.vehicle, current]
    by_cases same : vehicleId = v
    · subst same
      simp [Vehicle.ofRow]
    · simp [same]
  | putZone | appendAnomaly | appendRaw | putVehicle | putMission | appendMaintenance => rfl

theorem zone_patch (texts : Texts) (zoneId : String) (w : Write) :
    (w.patch texts).bind (PatchEvent.zone zoneId) = w.zone zoneId := by
  cases w with
  | putZone z n =>
    rw [patch, Option.bind_some, PatchEvent.zone, zone]
  | putCurrent | appendAnomaly | appendRaw | putVehicle | putMission | appendMaintenance => rfl

end Write

/-- The database once the writes are committed. -/
def Db.after (db : Db) (writes : List Write) : Db := writes.foldl Write.apply db

theorem current_after (db : Db) (writes : List Write) (vehicleId : String) :
    (db.after writes).vehicleCurrentState.get? vehicleId =
      settled (Write.current vehicleId) writes (db.vehicleCurrentState.get? vehicleId) := by
  refine settled_foldl Write.apply (fun _ => True)
    (fun db => db.vehicleCurrentState.get? vehicleId) (fun _ _ _ => trivial) ?_ writes db trivial
  intro db w _
  cases w with
  | putCurrent v row =>
    rw [Write.apply, OrdMap.get?_set, Write.current]
    split <;> rfl
  | putZone | appendAnomaly | appendRaw | putVehicle | putMission | appendMaintenance => rfl

theorem zone_after (db : Db) (writes : List Write) (zoneId : String) :
    (db.after writes).zoneCounts.get? zoneId =
      settled (Write.zone zoneId) writes (db.zoneCounts.get? zoneId) := by
  refine settled_foldl Write.apply (fun _ => True)
    (fun db => db.zoneCounts.get? zoneId) (fun _ _ _ => trivial) ?_ writes db trivial
  intro db w _
  cases w with
  | putZone z n =>
    rw [Write.apply, OrdMap.get?_set, Write.zone]
    split <;> rfl
  | putCurrent | appendAnomaly | appendRaw | putVehicle | putMission | appendMaintenance => rfl

namespace Dashboard

/-- The page once a write has reached it. -/
def App.deliver (texts : Texts) (app : App) (w : Write) : App :=
  match w.patch texts with
  | some event => app.onEvent event
  | none => app

section Delivery

variable (texts : Texts)

theorem mem_vehicles_deliver (app : App) (w : Write) (vehicleId : String) :
    vehicleId ∈ (app.deliver texts w).vehicles.keys ↔ vehicleId ∈ app.vehicles.keys := by
  unfold App.deliver
  split
  · exact mem_vehicles_onEvent ..
  · exact Iff.rfl

theorem mem_zones_deliver (app : App) (w : Write) (zoneId : String) :
    zoneId ∈ (app.deliver texts w).zones.keys ↔ zoneId ∈ app.zones.keys := by
  unfold App.deliver
  split
  · exact mem_zones_onEvent ..
  · exact Iff.rfl

theorem vehicle_deliver {app : App} {vehicleId : String}
    (known : vehicleId ∈ app.vehicles.keys) (w : Write) :
    (app.deliver texts w).vehicles.get? vehicleId =
      ((w.current vehicleId).map (Vehicle.ofRow vehicleId)).or
        (app.vehicles.get? vehicleId) := by
  rw [← Write.current_patch texts]
  unfold App.deliver
  split
  next event patched => rw [patched, Option.bind_some, vehicles_onEvent known]
  next unpatched =>
    rw [unpatched]
    rfl

theorem zone_deliver {app : App} {zoneId : String} (known : zoneId ∈ app.zones.keys)
    (w : Write) :
    (app.deliver texts w).zones.get? zoneId = (w.zone zoneId).or (app.zones.get? zoneId) := by
  rw [← Write.zone_patch texts]
  unfold App.deliver
  split
  next event patched => rw [patched, Option.bind_some, zones_onEvent known]
  next unpatched =>
    rw [unpatched]
    rfl

theorem anomaly_delivered (app : App) (a : Anomaly) :
    (app.deliver texts (.appendAnomaly a)).anomalies.get? a.vehicleId =
      some (anomalyPayload texts a) :=
  OrdMap.get?_set_self ..

/-- A vehicle's anomaly is left alone by every write but an anomaly of the vehicle. -/
theorem anomaly_deliver (app : App) (vehicleId : String) (w : Write) :
    (∃ a, w = .appendAnomaly a ∧ a.vehicleId = vehicleId) ∨
    (app.deliver texts w).anomalies.get? vehicleId = app.anomalies.get? vehicleId := by
  cases w with
  | appendAnomaly a =>
    by_cases same : a.vehicleId = vehicleId
    · exact .inl ⟨a, rfl, same⟩
    · exact .inr (OrdMap.get?_set_of_ne _ _ _ _ fun equal => same equal.symm)
  | putCurrent | putZone | appendRaw | putVehicle | putMission | appendMaintenance =>
    exact .inr rfl

theorem vehicles_deliver (writes : List Write) (app : App) (vehicleId : String)
    (known : vehicleId ∈ app.vehicles.keys) :
    (writes.foldl (App.deliver texts) app).vehicles.get? vehicleId =
      settled (fun w => (w.current vehicleId).map (Vehicle.ofRow vehicleId)) writes
        (app.vehicles.get? vehicleId) :=
  settled_foldl (App.deliver texts) (fun app => vehicleId ∈ app.vehicles.keys)
    (fun app => app.vehicles.get? vehicleId)
    (fun app w => (mem_vehicles_deliver texts app w vehicleId).mpr)
    (fun _ w known => vehicle_deliver texts known w) writes app known

theorem zones_deliver (writes : List Write) (app : App) (zoneId : String)
    (known : zoneId ∈ app.zones.keys) :
    (writes.foldl (App.deliver texts) app).zones.get? zoneId =
      settled (Write.zone zoneId) writes (app.zones.get? zoneId) :=
  settled_foldl (App.deliver texts) (fun app => zoneId ∈ app.zones.keys)
    (fun app => app.zones.get? zoneId)
    (fun app w => (mem_zones_deliver texts app w zoneId).mpr)
    (fun _ w known => zone_deliver texts known w) writes app known

end Delivery

end Dashboard

end FleetTelemetry
