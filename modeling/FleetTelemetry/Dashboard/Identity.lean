import FleetTelemetry.Dashboard.Stores
import FleetTelemetry.Foundations.Objects

/-!
# The stores as objects

The stores once more, with the identity of the maps and of their entries, on which the
memoised rows and tiles depend. Forgetting the identities gives the stores of `App`.
-/

namespace FleetTelemetry.Dashboard

open Foundations

namespace Identity

section Stores

variable {V : Type}

/-- A patch of a store whose keys are fixed by its seed. -/
def patchKnown (current : Obj (OrdMap String V)) (key : String) (entry : Alloc V) :
    Alloc (Obj (OrdMap String V)) :=
  if current.contents.has key then copySet current key entry else pure current

def seedVehicles : List VehicleSnapshotRow → Alloc (Obj (OrdMap String (Obj Vehicle))) :=
  mapOf VehicleSnapshotRow.vehicleId fun row =>
    alloc ⟨row.vehicleId, row.status, row.batteryPct⟩

def applyVehiclePatch (current : Obj (OrdMap String (Obj Vehicle)))
    (patch : VehicleStateChangedPayload) : Alloc (Obj (OrdMap String (Obj Vehicle))) :=
  patchKnown current patch.vehicleId (alloc ⟨patch.vehicleId, patch.status, patch.batteryPct⟩)

-- counts are primitive numbers: an entry is its value
def seedZones : ZoneCountsSnapshot → Alloc (Obj (OrdMap String Int)) :=
  mapOf Prod.fst fun entry => pure entry.2

def applyZonePatch (current : Obj (OrdMap String Int)) (patch : ZoneCountChangedPayload) :
    Alloc (Obj (OrdMap String Int)) :=
  patchKnown current patch.zoneId (pure patch.entryCount)

/-- Copies the row's fields into an object of its own. -/
def toAnomaly (row : AnomalyDetectedPayload) : Alloc (Obj AnomalyDetectedPayload) :=
  alloc ⟨row.vehicleId, row.anomalyType, row.detail, row.detectedAt⟩

def seedAnomalies :
    List AnomalySnapshotRow → Alloc (Obj (OrdMap String (Obj AnomalyDetectedPayload))) :=
  mapOf AnomalyDetectedPayload.vehicleId toAnomaly

def applyAnomalyPatch (current : Obj (OrdMap String (Obj AnomalyDetectedPayload)))
    (patch : AnomalyDetectedPayload) : Alloc (Obj (OrdMap String (Obj AnomalyDetectedPayload))) :=
  copySet current patch.vehicleId (toAnomaly patch)

end Stores

structure Stores where
  vehicles : Obj (OrdMap String (Obj Vehicle))
  anomalies : Obj (OrdMap String (Obj AnomalyDetectedPayload))
  zones : Obj (OrdMap String Int)

def Stores.seed (vehicles : List VehicleSnapshotRow) (anomalies : List AnomalySnapshotRow)
    (zones : ZoneCountsSnapshot) : Alloc Stores := do
  let vehicles ← seedVehicles vehicles
  let anomalies ← seedAnomalies anomalies
  let zones ← seedZones zones
  pure ⟨vehicles, anomalies, zones⟩

/-- The `subscribe` handler. -/
def Stores.onEvent (stores : Stores) : PatchEvent → Alloc Stores
  | .vehicleStateChanged payload => do
    let vehicles ← applyVehiclePatch stores.vehicles payload
    pure { stores with vehicles }
  | .anomalyDetected payload => do
    let anomalies ← applyAnomalyPatch stores.anomalies payload
    pure { stores with anomalies }
  | .zoneCountChanged payload => do
    let zones ← applyZonePatch stores.zones payload
    pure { stores with zones }

def Stores.onEvents (stores : Stores) (events : List PatchEvent) : Alloc Stores :=
  events.foldlM Stores.onEvent stores

/-- What the stores hold, whatever objects hold it. -/
def Stores.app (stores : Stores) : App where
  vehicles := stores.vehicles.contents.map Obj.contents
  anomalies := stores.anomalies.contents.map Obj.contents
  zones := stores.zones.contents

/-- The props of a `VehicleRow` that its `memo` compares, by reference. -/
structure VehicleRowProps where
  vehicle : Obj Vehicle
  anomaly : Option (Obj AnomalyDetectedPayload)

structure ZoneTileProps where
  zoneId : String
  count : Int

/-- The rows of `VehicleList`, each under its React key. -/
def Stores.rows (stores : Stores) : List (String × VehicleRowProps) :=
  (stores.vehicles.contents.entries.map Prod.snd).map fun vehicle =>
    (vehicle.contents.vehicleId,
      ⟨vehicle, stores.anomalies.contents.get? vehicle.contents.vehicleId⟩)

/-- The tiles of `ZoneTiles`, each under its React key. -/
def Stores.tiles (stores : Stores) : List (String × ZoneTileProps) :=
  stores.zones.contents.entries.map fun entry => (entry.1, ⟨entry.1, entry.2⟩)

section Refinement

variable {V W : Type}

theorem patchKnown_contents (view : V → W) (current : Obj (OrdMap String V)) (key : String)
    (entry : Alloc V) (written : W) (same : ∀ n, view (entry n).1 = written) (n : Nat) :
    (patchKnown current key entry n).1.contents.map view =
      Dashboard.patchKnown (current.contents.map view) key written := by
  have keys : (current.contents.map view).has key = current.contents.has key := by
    rw [OrdMap.has, OrdMap.has, OrdMap.keys_map]
  unfold patchKnown Dashboard.patchKnown
  rw [keys]
  -- an unknown key leaves both maps alone
  split
  · rw [copySet_contents, OrdMap.map_set, same]
  · rfl

theorem keys_app (stores : Stores) :
    stores.app.vehicles.keys = stores.vehicles.contents.keys ∧
      stores.app.anomalies.keys = stores.anomalies.contents.keys :=
  ⟨OrdMap.keys_map .., OrdMap.keys_map ..⟩

theorem app_seed (vehicles : List VehicleSnapshotRow) (anomalies : List AnomalySnapshotRow)
    (zones : ZoneCountsSnapshot) (n : Nat) : (Stores.seed vehicles anomalies zones n).1.app =
      ⟨Dashboard.seedVehicles vehicles, Dashboard.seedAnomalies anomalies,
        Dashboard.seedZones zones⟩ := by
  -- each seed allocates where the one before it has stopped
  have rows := mapOf_contents Obj.contents VehicleSnapshotRow.vehicleId
    (fun row => alloc ⟨row.vehicleId, row.status, row.batteryPct⟩)
    (fun row => (⟨row.vehicleId, row.status, row.batteryPct⟩ : Vehicle))
    (fun _ _ => rfl) vehicles n
  have latest := mapOf_contents Obj.contents AnomalyDetectedPayload.vehicleId toAnomaly
    (fun row => row) (fun _ _ => rfl) anomalies (seedVehicles vehicles n).2
  have counts := mapOf_contents id Prod.fst (fun entry : String × Int => pure entry.2)
    (fun entry => entry.2) (fun _ _ => rfl) zones
    (seedAnomalies anomalies (seedVehicles vehicles n).2).2
  rw [OrdMap.map_id] at counts
  exact congr (congrArg₂ App.mk rows latest) counts

/-- The objects refine the stores. -/
theorem app_onEvent (stores : Stores) (event : PatchEvent) (n : Nat) :
    (stores.onEvent event n).1.app = stores.app.onEvent event := by
  cases event with
  -- a new object has the contents that the plain store would hold
  | vehicleStateChanged payload =>
    have patched := patchKnown_contents Obj.contents stores.vehicles payload.vehicleId
      (alloc ⟨payload.vehicleId, payload.status, payload.batteryPct⟩) _ (fun _ => rfl) n
    exact congrArg (fun vehicles => { stores.app with vehicles }) patched
  | anomalyDetected payload =>
    have patched := OrdMap.map_set Obj.contents stores.anomalies.contents payload.vehicleId
      (toAnomaly payload (n + 1)).1
    exact congrArg (fun anomalies => { stores.app with anomalies }) patched
  | zoneCountChanged payload =>
    have patched := patchKnown_contents id stores.zones payload.zoneId (pure payload.entryCount)
      _ (fun _ => rfl) n
    rw [OrdMap.map_id, OrdMap.map_id] at patched
    exact congrArg (fun zones => { stores.app with zones }) patched

theorem app_onEvents (stores : Stores) (events : List PatchEvent) (n : Nat) :
    (stores.onEvents events n).1.app = events.foldl App.onEvent stores.app :=
  foldlM_view Stores.app App.onEvent app_onEvent events stores n

end Refinement

/-! ### Framing: what a run of patches leaves as it was -/

section Framing

variable {V : Type}

theorem patchKnown_unknown {current : Obj (OrdMap String V)} {key : String}
    (unknown : key ∉ current.contents.keys) (entry : Alloc V) (n : Nat) :
    patchKnown current key entry n = (current, n) := by
  have absent : ¬current.contents.has key = true := by rwa [OrdMap.has_iff]
  rw [patchKnown, if_neg absent]
  rfl

theorem patchKnown_keeps {current : Obj (OrdMap String V)} {key k : String} (other : key ≠ k)
    (entry : Alloc V) (n : Nat) :
    (patchKnown current key entry n).1.contents.get? k = current.contents.get? k := by
  unfold patchKnown
  split
  · rw [copySet_contents, OrdMap.get?_set_of_ne _ _ _ _ other.symm]
  · rfl

theorem keys_patchKnown (current : Obj (OrdMap String V)) (key : String) (entry : Alloc V)
    (n : Nat) : (patchKnown current key entry n).1.contents.keys = current.contents.keys := by
  unfold patchKnown
  split
  next known => exact OrdMap.keys_set_of_mem _ _ _ ((OrdMap.has_iff _ _).mp known)
  · rfl

/-- A patch of a known vehicle makes a new map and a new entry, so its row is rendered. -/
theorem applyVehiclePatch_fresh {current : Obj (OrdMap String (Obj Vehicle))}
    {patch : VehicleStateChangedPayload} (known : patch.vehicleId ∈ current.contents.keys)
    (n : Nat) :
    (applyVehiclePatch current patch n).1.address = n ∧
      (applyVehiclePatch current patch n).1.contents.get? patch.vehicleId =
        some ⟨n + 1, ⟨patch.vehicleId, patch.status, patch.batteryPct⟩⟩ := by
  have found := (OrdMap.has_iff _ _).mpr known
  rw [applyVehiclePatch, patchKnown, if_pos found]
  exact ⟨rfl, OrdMap.get?_set_self ..⟩

theorem keys_onEvent (stores : Stores) (event : PatchEvent) (n : Nat) :
    (stores.onEvent event n).1.vehicles.contents.keys = stores.vehicles.contents.keys ∧
      (stores.onEvent event n).1.zones.contents.keys = stores.zones.contents.keys := by
  cases event with
  | vehicleStateChanged payload => exact ⟨keys_patchKnown .., rfl⟩
  | anomalyDetected => exact ⟨rfl, rfl⟩
  | zoneCountChanged payload => exact ⟨rfl, keys_patchKnown ..⟩

section Untouched

variable {stores : Stores} {event : PatchEvent} {id : String} (n : Nat)

theorem vehicle_kept (other : event.cell ≠ .vehicle id) :
    (stores.onEvent event n).1.vehicles.contents.get? id = stores.vehicles.contents.get? id := by
  cases event with
  | vehicleStateChanged payload =>
    exact patchKnown_keeps (fun same => other (congrArg Cell.vehicle same)) _ n
  | anomalyDetected | zoneCountChanged => rfl

theorem anomaly_kept (other : event.cell ≠ .anomaly id) :
    (stores.onEvent event n).1.anomalies.contents.get? id =
      stores.anomalies.contents.get? id := by
  cases event with
  | anomalyDetected payload =>
    exact OrdMap.get?_set_of_ne _ _ _ _ fun same => other (congrArg Cell.anomaly same.symm)
  | vehicleStateChanged | zoneCountChanged => rfl

theorem zone_kept (other : event.cell ≠ .zone id) :
    (stores.onEvent event n).1.zones.contents.get? id = stores.zones.contents.get? id := by
  cases event with
  | zoneCountChanged payload =>
    exact patchKnown_keeps (fun same => other (congrArg Cell.zone same)) _ n
  | anomalyDetected | vehicleStateChanged => rfl

end Untouched

/-- Each vehicle is stored under its own id. -/
def Keyed (vehicles : VehicleMap) : Prop :=
  ∀ id vehicle, vehicles.get? id = some vehicle → vehicle.vehicleId = id

theorem Keyed.set {vehicles : VehicleMap} (keyed : Keyed vehicles) (vehicle : Vehicle) :
    Keyed (OrdMap.set vehicles vehicle.vehicleId vehicle) := by
  intro id stored found
  rw [OrdMap.get?_set] at found
  split at found
  next same =>
    cases found
    exact same.symm
  · exact keyed id stored found

theorem keyed_seedVehicles (snapshot : List VehicleSnapshotRow) :
    Keyed (Dashboard.seedVehicles snapshot) := by
  have empty : Keyed .empty := fun _ _ absent => by cases absent
  exact List.foldlRecOn snapshot _ empty fun _ keyed row _ =>
    keyed.set ⟨row.vehicleId, row.status, row.batteryPct⟩

theorem keyed_onEvent {app : App} (keyed : Keyed app.vehicles) (event : PatchEvent) :
    Keyed (app.onEvent event).vehicles := by
  cases event with
  | vehicleStateChanged payload =>
    rw [App.onEvent, Dashboard.applyVehiclePatch, Dashboard.patchKnown]
    split
    · exact keyed.set ⟨payload.vehicleId, payload.status, payload.batteryPct⟩
    · exact keyed
  | anomalyDetected | zoneCountChanged => exact keyed

/-- A row reads both stores at the key of its vehicle. -/
theorem rows_eq {stores : Stores} (keyed : Keyed stores.app.vehicles) :
    stores.rows = stores.vehicles.contents.entries.map fun entry =>
      (entry.1, ⟨entry.2, stores.anomalies.contents.get? entry.1⟩) := by
  rw [Stores.rows, List.map_map]
  apply List.map_congr_left
  intro entry member
  have found : stores.vehicles.contents.get? entry.1 = some entry.2 :=
    OrdMap.lookup_of_mem stores.vehicles.contents.nodup member
  -- the list looks the anomaly up by the vehicle's own field, not by its key
  have own : entry.2.contents.vehicleId = entry.1 := by
    apply keyed entry.1
    rw [Stores.app, OrdMap.get?_map, found, Option.map_some]
  rw [Function.comp, own]

theorem rows_keys {stores : Stores} (keyed : Keyed stores.app.vehicles) :
    stores.rows.map Prod.fst = stores.vehicles.contents.keys := by
  rw [rows_eq keyed, List.map_map]
  rfl

theorem rows_lookup {stores : Stores} (keyed : Keyed stores.app.vehicles) (id : String) :
    stores.rows.lookup id = (stores.vehicles.contents.get? id).map fun vehicle =>
      ⟨vehicle, stores.anomalies.contents.get? id⟩ := by
  rw [rows_eq keyed]
  exact OrdMap.lookup_map_value
    (fun id vehicle => (⟨vehicle, stores.anomalies.contents.get? id⟩ : VehicleRowProps)) _ id

theorem tiles_keys (stores : Stores) :
    stores.tiles.map Prod.fst = stores.zones.contents.keys := by
  rw [Stores.tiles, List.map_map]
  rfl

theorem tiles_lookup (stores : Stores) (id : String) :
    stores.tiles.lookup id = (stores.zones.contents.get? id).map fun count => ⟨id, count⟩ :=
  OrdMap.lookup_map_value (fun id count => (⟨id, count⟩ : ZoneTileProps)) _ id

end Framing

/-- What a run of patches does to the stores, and to the rows and tiles drawn from them. -/
structure Framed (before after : Stores) (events : List PatchEvent) : Prop where
  vehicleKeys : after.vehicles.contents.keys = before.vehicles.contents.keys
  zoneKeys : after.zones.contents.keys = before.zones.contents.keys
  anomalyKeys : ∀ id, id ∈ after.anomalies.contents.keys ↔
    id ∈ before.anomalies.contents.keys ∨ ∃ event ∈ events, event.cell = .anomaly id
  vehicle : ∀ id ∈ before.vehicles.contents.keys, after.app.vehicles.get? id =
    settled (PatchEvent.vehicle id) events (before.app.vehicles.get? id)
  zone : ∀ id ∈ before.zones.contents.keys, after.app.zones.get? id =
    settled (PatchEvent.zone id) events (before.app.zones.get? id)
  anomaly : ∀ id, after.app.anomalies.get? id =
    settled (PatchEvent.anomaly id) events (before.app.anomalies.get? id)
  vehicleKept : ∀ id, (∀ event ∈ events, event.cell ≠ .vehicle id) →
    after.vehicles.contents.get? id = before.vehicles.contents.get? id
  zoneKept : ∀ id, (∀ event ∈ events, event.cell ≠ .zone id) →
    after.zones.contents.get? id = before.zones.contents.get? id
  anomalyKept : ∀ id, (∀ event ∈ events, event.cell ≠ .anomaly id) →
    after.anomalies.contents.get? id = before.anomalies.contents.get? id
  rowKeys : after.rows.map Prod.fst = before.rows.map Prod.fst
  tileKeys : after.tiles.map Prod.fst = before.tiles.map Prod.fst
  rowKept : ∀ id, (∀ event ∈ events, event.cell ≠ .vehicle id ∧ event.cell ≠ .anomaly id) →
    after.rows.lookup id = before.rows.lookup id
  tileKept : ∀ id, (∀ event ∈ events, event.cell ≠ .zone id) →
    after.tiles.lookup id = before.tiles.lookup id

/-- The same patches, with those for one entry in the same order. -/
structure Reordered (events events' : List PatchEvent) : Prop where
  perm : events.Perm events'
  order : ∀ cell, events.filter (fun event => event.cell = cell) =
    events'.filter fun event => event.cell = cell

section Runs

variable {stores : Stores} (events : List PatchEvent) (n : Nat)

theorem keys_onEvents :
    (stores.onEvents events n).1.vehicles.contents.keys = stores.vehicles.contents.keys ∧
      (stores.onEvents events n).1.zones.contents.keys = stores.zones.contents.keys := by
  refine foldlM_keeps (fun after : Stores =>
    after.vehicles.contents.keys = stores.vehicles.contents.keys ∧
      after.zones.contents.keys = stores.zones.contents.keys) ?_ ⟨rfl, rfl⟩ n
  intro event _ current next keys
  have step := keys_onEvent current event next
  exact ⟨step.1.trans keys.1, step.2.trans keys.2⟩

theorem mem_anomalies_onEvents (id : String) :
    id ∈ (stores.onEvents events n).1.anomalies.contents.keys ↔
      id ∈ stores.anomalies.contents.keys ∨ ∃ event ∈ events, event.cell = .anomaly id := by
  -- the keys are those of the contents, whose patches add theirs one by one
  have general : ∀ app : App, id ∈ (events.foldl App.onEvent app).anomalies.keys ↔
      id ∈ app.anomalies.keys ∨ ∃ event ∈ events, event.cell = .anomaly id := by
    induction events with
    | nil => simp
    | cons event events ih =>
      intro app
      rw [List.foldl_cons, ih, mem_anomalies_onEvent, or_assoc]
      simp only [List.mem_cons, exists_eq_or_imp]
  rw [← (keys_app _).2, app_onEvents, general, (keys_app _).2]

theorem vehicle_settled {id : String} (known : id ∈ stores.vehicles.contents.keys) :
    (stores.onEvents events n).1.app.vehicles.get? id =
      settled (PatchEvent.vehicle id) events (stores.app.vehicles.get? id) := by
  rw [app_onEvents]
  refine settled_foldl App.onEvent (fun app => id ∈ app.vehicles.keys)
    (fun app => app.vehicles.get? id) ?_ ?_ events stores.app ?_
  · exact fun app event present => (mem_vehicles_onEvent app event id).mpr present
  · exact fun app event present => vehicles_onEvent present event
  · rwa [(keys_app _).1]

theorem zone_settled {id : String} (known : id ∈ stores.zones.contents.keys) :
    (stores.onEvents events n).1.app.zones.get? id =
      settled (PatchEvent.zone id) events (stores.app.zones.get? id) := by
  rw [app_onEvents]
  refine settled_foldl App.onEvent (fun app => id ∈ app.zones.keys)
    (fun app => app.zones.get? id) ?_ ?_ events stores.app known
  · exact fun app event present => (mem_zones_onEvent app event id).mpr present
  · exact fun app event present => zones_onEvent present event

theorem anomaly_settled (id : String) :
    (stores.onEvents events n).1.app.anomalies.get? id =
      settled (PatchEvent.anomaly id) events (stores.app.anomalies.get? id) := by
  rw [app_onEvents]
  exact settled_foldl App.onEvent (fun _ => True) (fun app => app.anomalies.get? id)
    (fun _ _ _ => trivial) (fun app event _ => anomalies_onEvent app event id) events stores.app
    trivial

theorem keyed_onEvents (keyed : Keyed stores.app.vehicles) :
    Keyed (stores.onEvents events n).1.app.vehicles := by
  rw [app_onEvents]
  exact List.foldlRecOn (motive := fun app : App => Keyed app.vehicles) events _ keyed
    fun _ kept event _ => keyed_onEvent kept event

/-- Entries that no patch is for keep what a step keeps. -/
theorem onEvents_keeps {A : Type} (view : Stores → A) {cell : Cell}
    (kept : ∀ (current : Stores) event next, event.cell ≠ cell →
      view (current.onEvent event next).1 = view current)
    (untouched : ∀ event ∈ events, event.cell ≠ cell) :
    view (stores.onEvents events n).1 = view stores :=
  foldlM_keeps (fun after => view after = view stores)
    (fun event member current next same =>
      (kept current event next (untouched event member)).trans same) rfl n

theorem framed_onEvents (keyed : Keyed stores.app.vehicles) :
    Framed stores (stores.onEvents events n).1 events := by
  have keys : (stores.onEvents events n).1.vehicles.contents.keys = stores.vehicles.contents.keys ∧
      (stores.onEvents events n).1.zones.contents.keys = stores.zones.contents.keys :=
    keys_onEvents events n
  have keyed' := keyed_onEvents events n keyed
  -- the same object in every entry no patch is for, and so the same props
  have vehicleKept : ∀ id, (∀ event ∈ events, event.cell ≠ .vehicle id) →
      (stores.onEvents events n).1.vehicles.contents.get? id =
        stores.vehicles.contents.get? id := fun id =>
    onEvents_keeps events n (fun s => s.vehicles.contents.get? id)
      fun _ _ next => vehicle_kept next
  have anomalyKept : ∀ id, (∀ event ∈ events, event.cell ≠ .anomaly id) →
      (stores.onEvents events n).1.anomalies.contents.get? id =
        stores.anomalies.contents.get? id := fun id =>
    onEvents_keeps events n (fun s => s.anomalies.contents.get? id)
      fun _ _ next => anomaly_kept next
  have zoneKept : ∀ id, (∀ event ∈ events, event.cell ≠ .zone id) →
      (stores.onEvents events n).1.zones.contents.get? id =
        stores.zones.contents.get? id := fun id =>
    onEvents_keeps events n (fun s => s.zones.contents.get? id)
      fun _ _ next => zone_kept next
  exact {
    vehicleKeys := keys.1
    zoneKeys := keys.2
    anomalyKeys := mem_anomalies_onEvents events n
    vehicle := fun _ => vehicle_settled events n
    zone := fun _ => zone_settled events n
    anomaly := anomaly_settled events n
    vehicleKept
    zoneKept
    anomalyKept
    rowKeys := by rw [rows_keys keyed', rows_keys keyed, keys.1]
    tileKeys := by rw [tiles_keys, tiles_keys, keys.2]
    rowKept := by
      intro id untouched
      rw [rows_lookup keyed', rows_lookup keyed,
        vehicleKept id fun event member => (untouched event member).1,
        anomalyKept id fun event member => (untouched event member).2]
    tileKept := by
      intro id untouched
      rw [tiles_lookup, tiles_lookup, zoneKept id untouched] }

end Runs

section Reordering

variable {events events' : List PatchEvent}

/-- What the patches leave in an entry is decided by those for it. -/
theorem Reordered.settled {V : Type} {g : PatchEvent → Option V} {cell : Cell}
    (same : Reordered events events') (own : ∀ event, event.cell ≠ cell → g event = none)
    (v : Option V) : settled g events v = settled g events' v := by
  have others : ∀ event : PatchEvent, decide (event.cell = cell) = false → g event = none :=
    fun event other => own event (of_decide_eq_false other)
  rw [Foundations.settled, Foundations.settled, ← lastWrite_filter _ others, same.order cell,
    lastWrite_filter _ others]

theorem reordered_lookups (same : Reordered events events') (stores : Stores) (n : Nat)
    (id : String) :
    let after := (stores.onEvents events n).1.app
    let after' := (stores.onEvents events' n).1.app
    after.vehicles.get? id = after'.vehicles.get? id ∧
      after.anomalies.get? id = after'.anomalies.get? id ∧
      after.zones.get? id = after'.zones.get? id := by
  intro after after'
  -- in either order the rows and tiles are those of the seed
  have rows : after.vehicles.keys = stores.vehicles.contents.keys :=
    (keys_app _).1.trans (keys_onEvents events n).1
  have rows' : after'.vehicles.keys = stores.vehicles.contents.keys :=
    (keys_app _).1.trans (keys_onEvents events' n).1
  have tiles : after.zones.keys = stores.zones.contents.keys := (keys_onEvents events n).2
  have tiles' : after'.zones.keys = stores.zones.contents.keys := (keys_onEvents events' n).2
  refine ⟨?_, ?_, ?_⟩
  · apply OrdMap.get?_eq_of_keys _ _ _ (by rw [rows, rows'])
    intro known
    rw [rows] at known
    rw [vehicle_settled events n known, vehicle_settled events' n known,
      same.settled fun event => PatchEvent.vehicle_of_cell]
  · rw [anomaly_settled events n, anomaly_settled events' n,
      same.settled fun event => PatchEvent.anomaly_of_cell]
  · apply OrdMap.get?_eq_of_keys _ _ _ (by rw [tiles, tiles'])
    intro known
    rw [tiles] at known
    rw [zone_settled events n known, zone_settled events' n known,
      same.settled fun event => PatchEvent.zone_of_cell]

end Reordering

section Seed

variable (vehicles : List VehicleSnapshotRow) (anomalies : List AnomalySnapshotRow)
  (zones : ZoneCountsSnapshot) (n : Nat)

theorem keyed_seed : Keyed (Stores.seed vehicles anomalies zones n).1.app.vehicles := by
  rw [app_seed]
  exact keyed_seedVehicles vehicles

/-- The seed has the ids of the snapshots, each where it first occurs. -/
theorem keys_seed :
    let seeded := (Stores.seed vehicles anomalies zones n).1
    seeded.vehicles.contents.keys = (vehicles.map VehicleSnapshotRow.vehicleId).eraseDups ∧
      seeded.anomalies.contents.keys =
        (anomalies.map AnomalyDetectedPayload.vehicleId).eraseDups ∧
      seeded.zones.contents.keys = (zones.map Prod.fst).eraseDups := by
  intro seeded
  have held : seeded.app = _ := app_seed vehicles anomalies zones n
  obtain ⟨rows, latest⟩ := keys_app seeded
  refine ⟨?_, ?_, ?_⟩
  · rw [← rows, held]
    exact OrdMap.keys_foldl_rows ..
  · rw [← latest, held]
    exact OrdMap.keys_foldl_rows ..
  · rw [show seeded.zones.contents = seeded.app.zones from rfl, held]
    exact OrdMap.keys_foldl_rows ..

end Seed

/-- Whatever patches follow, in stores that have each vehicle under its own id the last patch
of each entry is what counts and every other entry keeps its object. A patch of an unknown
vehicle or zone gives back the map it was applied to. The seeds are such stores, with the ids
of their snapshots. -/
theorem folds_lastWriteWins :
    (∀ (stores : Stores) (events : List PatchEvent) (n : Nat), Keyed stores.app.vehicles →
      Framed stores (stores.onEvents events n).1 events) ∧
    (∀ (current : Obj (OrdMap String (Obj Vehicle))) patch next,
      patch.vehicleId ∉ current.contents.keys →
        applyVehiclePatch current patch next = (current, next)) ∧
    (∀ (current : Obj (OrdMap String Int)) patch next,
      patch.zoneId ∉ current.contents.keys →
        applyZonePatch current patch next = (current, next)) ∧
    (∀ (stores : Stores) (events events' : List PatchEvent) (n : Nat),
      Reordered events events' → ∀ id,
        let after := (stores.onEvents events n).1.app
        let after' := (stores.onEvents events' n).1.app
        after.vehicles.get? id = after'.vehicles.get? id ∧
          after.anomalies.get? id = after'.anomalies.get? id ∧
          after.zones.get? id = after'.zones.get? id) ∧
    ∀ (vehicles : List VehicleSnapshotRow) (anomalies : List AnomalySnapshotRow)
      (zones : ZoneCountsSnapshot) (n : Nat),
      let seeded := (Stores.seed vehicles anomalies zones n).1
      Keyed seeded.app.vehicles ∧
        seeded.vehicles.contents.keys =
          (vehicles.map VehicleSnapshotRow.vehicleId).eraseDups ∧
        seeded.anomalies.contents.keys =
          (anomalies.map AnomalyDetectedPayload.vehicleId).eraseDups ∧
        seeded.zones.contents.keys = (zones.map Prod.fst).eraseDups := by
  refine ⟨?_, ?_, ?_, ?_, ?_⟩
  · exact fun stores events n keyed => framed_onEvents events n keyed
  · exact fun _ _ next unknown => patchKnown_unknown unknown _ next
  · exact fun _ _ next unknown => patchKnown_unknown unknown _ next
  · exact fun stores _ _ n same => reordered_lookups same stores n
  · exact fun vehicles anomalies zones n =>
      ⟨keyed_seed vehicles anomalies zones n, keys_seed vehicles anomalies zones n⟩

end Identity

end FleetTelemetry.Dashboard
