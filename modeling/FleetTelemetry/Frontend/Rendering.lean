import FleetTelemetry.Dashboard.Identity
import FleetTelemetry.Foundations.Memo
import FleetTelemetry.Frontend.Mounting

/-!
# Rendering the dashboard

`App` with its memoised list, rows, grid and tiles. The state hooks hold objects with an
identity, the memos compare references, and React renders whenever it likes: any number of
updates may have queued up, which the next render applies in order.
-/

namespace FleetTelemetry.Frontend

open Foundations
open Dashboard
open Dashboard.Identity (Stores VehicleRowProps ZoneTileProps)

structure VehicleRowView where
  vehicleId : String
  status : String
  batteryPct : Double
  low : Bool
  anomaly : Option String
  deriving DecidableEq, Repr

def lowBatteryThreshold : Double := .finite 20

/-- `VehicleRowImpl`. -/
def vehicleRowImpl (vehicle : Vehicle) (anomaly : Option AnomalyDetectedPayload) :
    VehicleRowView where
  vehicleId := vehicle.vehicleId
  status := vehicle.status
  batteryPct := vehicle.batteryPct
  low := vehicle.batteryPct.lt lowBatteryThreshold
  anomaly := anomaly.map AnomalyDetectedPayload.anomalyType

structure ZoneTileView where
  zoneId : String
  count : Int
  deriving DecidableEq, Repr

/-- A section: its empty state, or its items. -/
inductive Surface (O : Type) where
  | empty (message : String)
  | listed (items : List O)

structure Page where
  connection : String
  message : Option String
  vehicles : Surface VehicleRowView
  zones : Surface ZoneTileView
  announcement : String

def connectionLabel (connected : Bool) : String := if connected then "Connected" else "Disconnected"

def dataMessage : DataStatus → Option String
  | .loading => some "Loading vehicle and zone data…"
  | .error => some "Could not load fleet data. Please try again later."
  | .ok => none

def noVehicles : String := "No vehicles are currently available."
def noZones : String := "No zones are currently configured."

def vehicleViews (vehicles : VehicleMap) (anomalies : AnomalyMap) : List VehicleRowView :=
  (vehicles.entries.map Prod.snd).map fun vehicle =>
    vehicleRowImpl vehicle (anomalies.get? vehicle.vehicleId)

def zoneViews (zones : ZoneMap) : List ZoneTileView :=
  zones.entries.map fun entry => ⟨entry.1, entry.2⟩

/-- Without memos: everything from the values of the hooks. -/
def Shown.page (shown : Shown) : Page where
  connection := connectionLabel shown.connected
  message := dataMessage shown.dataStatus
  vehicles :=
    if shown.dataStatus = .ok ∧ shown.app.vehicles.entries.length = 0 then .empty noVehicles
    else .listed (vehicleViews shown.app.vehicles shown.app.anomalies)
  zones :=
    if shown.dataStatus = .ok ∧ shown.app.zones.entries.length = 0 then .empty noZones
    else .listed (zoneViews shown.app.zones)
  announcement := shown.announcement

/-- A call of a state setter, or the fold of an event by one. -/
inductive Update where
  | vehicles (snapshot : List VehicleSnapshotRow)
  | anomalies (snapshot : List AnomalySnapshotRow)
  | zones (snapshot : ZoneCountsSnapshot)
  | event (event : PatchEvent)
  | dataStatus (status : DataStatus)
  | announcement (text : String)
  | connected (state : Bool)

/-- The update of the values. -/
def Shown.update (shown : Shown) : Update → Shown
  | .vehicles snapshot =>
    { shown with app := { shown.app with vehicles := seedVehicles snapshot } }
  | .anomalies snapshot =>
    { shown with app := { shown.app with anomalies := seedAnomalies snapshot } }
  | .zones snapshot =>
    { shown with app := { shown.app with zones := Dashboard.seedZones snapshot } }
  | .event event => { shown with app := shown.app.onEvent event }
  | .dataStatus status => { shown with dataStatus := status }
  | .announcement text => { shown with announcement := text }
  | .connected state => { shown with connected := state }

/-- The props of `VehicleList` that its memo compares. -/
structure VehicleListProps where
  vehicles : Obj (OrdMap String (Obj Vehicle))
  anomalies : Obj (OrdMap String (Obj AnomalyDetectedPayload))

def VehicleListProps.rows (props : VehicleListProps) : List (String × VehicleRowProps) :=
  (props.vehicles.contents.entries.map Prod.snd).map fun vehicle =>
    (vehicle.contents.vehicleId,
      ⟨vehicle, props.anomalies.contents.get? vehicle.contents.vehicleId⟩)

def vehicleRow : Component VehicleRowProps VehicleRowView where
  same props props' :=
    props.vehicle.is props'.vehicle && Obj.isOptional props.anomaly props'.anomaly
  body props := vehicleRowImpl props.vehicle.contents (props.anomaly.map Obj.contents)

def vehicleList : Listing VehicleListProps String VehicleRowProps VehicleRowView where
  same props props' :=
    props.vehicles.is props'.vehicles && props.anomalies.is props'.anomalies
  children := VehicleListProps.rows
  child := vehicleRow

def zoneTile : Component ZoneTileProps ZoneTileView where
  same props props' := decide (props.zoneId = props'.zoneId ∧ props.count = props'.count)
  body props := ⟨props.zoneId, props.count⟩

def zoneTiles : Listing (Obj (OrdMap String Int)) String ZoneTileProps ZoneTileView where
  same := Obj.is
  children zones := zones.contents.entries.map fun entry => (entry.1, ⟨entry.1, entry.2⟩)
  child := zoneTile

/-- The hooks of `App`, what is mounted below it, and what is on the page. -/
structure Tree where
  stores : Stores
  dataStatus : DataStatus
  announcement : String
  connected : Bool
  /-- The next address. -/
  next : Nat
  list : Option (MountedList VehicleListProps String VehicleRowProps VehicleRowView)
  grid : Option (MountedList (Obj (OrdMap String Int)) String ZoneTileProps ZoneTileView)
  page : Option Page
  /-- The rows and tiles whose bodies the last render ran. -/
  rowsRan : List String
  tilesRan : List String

namespace Tree

/-- What the hooks hold, whatever objects hold it. -/
def shown (t : Tree) : Shown := ⟨t.stores.app, t.dataStatus, t.announcement, t.connected⟩

/-- Before the first render; the three empty maps are constants of the module. -/
def initial (connected : Bool) : Tree :=
  ⟨⟨⟨0, .empty⟩, ⟨1, .empty⟩, ⟨2, .empty⟩⟩, .loading, "", connected, 3, none, none, none, [], []⟩

/-- A setter that makes objects. -/
def set (t : Tree) (stores : Alloc Stores) : Tree :=
  { t with stores := (stores t.next).1, next := (stores t.next).2 }

def update (t : Tree) : Update → Tree
  | .vehicles snapshot => t.set do
    let vehicles ← Identity.seedVehicles snapshot
    pure { t.stores with vehicles }
  | .anomalies snapshot => t.set do
    let anomalies ← Identity.seedAnomalies snapshot
    pure { t.stores with anomalies }
  | .zones snapshot => t.set do
    let zones ← Identity.seedZones snapshot
    pure { t.stores with zones }
  | .event event => t.set (t.stores.onEvent event)
  | .dataStatus status => { t with dataStatus := status }
  | .announcement text => { t with announcement := text }
  | .connected state => { t with connected := state }

def listProps (t : Tree) : VehicleListProps := ⟨t.stores.vehicles, t.stores.anomalies⟩

/-- The empty state is shown in place of the list, which is unmounted. -/
def vehiclesEmpty (t : Tree) : Bool :=
  decide (t.dataStatus = .ok ∧ t.stores.vehicles.contents.entries.length = 0)

def zonesEmpty (t : Tree) : Bool :=
  decide (t.dataStatus = .ok ∧ t.stores.zones.contents.entries.length = 0)

def render (t : Tree) : Tree :=
  let list := vehicleList.render t.list t.listProps
  let grid := zoneTiles.render t.grid t.stores.zones
  { t with
    list := if t.vehiclesEmpty then none else some list
    grid := if t.zonesEmpty then none else some grid
    rowsRan := if t.vehiclesEmpty then [] else vehicleList.ran t.list t.listProps
    tilesRan := if t.zonesEmpty then [] else zoneTiles.ran t.grid t.stores.zones
    page := some {
      connection := connectionLabel t.connected
      message := dataMessage t.dataStatus
      vehicles := if t.vehiclesEmpty then .empty noVehicles else .listed list.outputs
      zones := if t.zonesEmpty then .empty noZones else .listed grid.outputs
      announcement := t.announcement } }

end Tree

/-- An update, or a render by React. -/
inductive Act where
  | update (update : Update)
  | render

def Act.updates : List Act → List Update :=
  List.filterMap fun
    | .update u => some u
    | .render => none

def Tree.act (t : Tree) : Act → Tree
  | .update update => t.update update
  | .render => t.render

def Tree.run (t : Tree) (acts : List Act) : Tree := acts.foldl Tree.act t

namespace VehicleListProps

/-- Each vehicle is stored under its own id. -/
def Keyed (props : VehicleListProps) : Prop :=
  Identity.Keyed (props.vehicles.contents.map Obj.contents)

theorem rows_eq {props : VehicleListProps} (keyed : props.Keyed) :
    props.rows = props.vehicles.contents.entries.map fun entry =>
      (entry.1, ⟨entry.2, props.anomalies.contents.get? entry.1⟩) :=
  @Identity.rows_eq ⟨props.vehicles, props.anomalies, ⟨0, .empty⟩⟩ keyed

theorem rows_keys {props : VehicleListProps} (keyed : props.Keyed) :
    props.rows.map Prod.fst = props.vehicles.contents.keys :=
  @Identity.rows_keys ⟨props.vehicles, props.anomalies, ⟨0, .empty⟩⟩ keyed

theorem rows_lookup {props : VehicleListProps} (keyed : props.Keyed) (id : String) :
    props.rows.lookup id = (props.vehicles.contents.get? id).map fun vehicle =>
      ⟨vehicle, props.anomalies.contents.get? id⟩ :=
  @Identity.rows_lookup ⟨props.vehicles, props.anomalies, ⟨0, .empty⟩⟩ keyed id

theorem rows_of_mem {props : VehicleListProps} (keyed : props.Keyed)
    {child : String × VehicleRowProps} (member : child ∈ props.rows) :
    props.vehicles.contents.get? child.1 = some child.2.vehicle ∧
      props.anomalies.contents.get? child.1 = child.2.anomaly := by
  rw [rows_eq keyed] at member
  obtain ⟨entry, stored, rfl⟩ := List.mem_map.mp member
  exact ⟨OrdMap.lookup_of_mem props.vehicles.contents.nodup stored, rfl⟩

/-- The memos of a list that is still held compare the same for the same props only. -/
theorem alike {n : Nat} {old props : VehicleListProps} (keyed : old.Keyed)
    (keyed' : props.Keyed) (vehicles : HeldMap n old.vehicles props.vehicles)
    (anomalies : HeldMap n old.anomalies props.anomalies) : vehicleList.Alike old props := by
  obtain ⟨oldVehicles, oldAnomalies⟩ := old
  constructor
  · intro same
    obtain ⟨sameVehicles, sameAnomalies⟩ := Bool.and_eq_true_iff.mp same
    exact congr (congrArg VehicleListProps.mk (vehicles.map.eq_of_is sameVehicles))
      (anomalies.map.eq_of_is sameAnomalies)
  · intro child member q found same
    obtain ⟨vehicle, anomaly⟩ := rows_of_mem keyed' member
    have stored := (rows_lookup keyed child.1).symm.trans found
    obtain ⟨o, before, rfl⟩ := Option.map_eq_some_iff.mp stored
    obtain ⟨sameVehicle, sameAnomaly⟩ := Bool.and_eq_true_iff.mp same
    -- the vehicle and the anomaly now at the row's id
    have vehicleHeld : Held n o (some child.2.vehicle) := by
      rw [← vehicle]
      exact vehicles.entries child.1 o before
    have anomalyHeld : ∀ a, oldAnomalies.contents.get? child.1 = some a →
        Held n a child.2.anomaly := by
      intro a there
      rw [← anomaly]
      exact anomalies.entries child.1 a there
    exact congr (congrArg VehicleRowProps.mk (vehicleHeld.eq_of_is sameVehicle))
      (Held.eq_of_isOptional anomalyHeld sameAnomaly)

end VehicleListProps

namespace Tree

/-! ### The values -/

theorem shown_update (t : Tree) (u : Update) : (t.update u).shown = t.shown.update u := by
  cases u with
  | vehicles snapshot =>
    have seeded := mapOf_contents Obj.contents VehicleSnapshotRow.vehicleId
      (fun row => alloc ⟨row.vehicleId, row.status, row.batteryPct⟩)
      (fun row => (⟨row.vehicleId, row.status, row.batteryPct⟩ : Vehicle))
      (fun _ _ => rfl) snapshot t.next
    exact congrArg (fun vehicles => { t.shown with app := { t.shown.app with vehicles } }) seeded
  | anomalies snapshot =>
    have seeded := mapOf_contents Obj.contents AnomalyDetectedPayload.vehicleId Identity.toAnomaly
      (fun row => row) (fun _ _ => rfl) snapshot t.next
    exact congrArg (fun anomalies => { t.shown with app := { t.shown.app with anomalies } }) seeded
  | zones snapshot =>
    have seeded := mapOf_contents id Prod.fst (fun entry : String × Int => pure entry.2)
      (fun entry => entry.2) (fun _ _ => rfl) snapshot t.next
    rw [OrdMap.map_id] at seeded
    exact congrArg (fun zones => { t.shown with app := { t.shown.app with zones } }) seeded
  -- a patch does to the contents what it does in the plain stores
  | event event =>
    exact congrArg (fun app => { t.shown with app }) (Identity.app_onEvent t.stores event t.next)
  | dataStatus | announcement | connected => rfl

/-! ### The objects -/

/-- What an update makes anew. -/
structure Advance (t t' : Tree) : Prop where
  vehicles : Grown t.next t'.next t.stores.vehicles t'.stores.vehicles
  anomalies : Grown t.next t'.next t.stores.anomalies t'.stores.anomalies
  zones : Since t.next t'.next (some t.stores.zones) (some t'.stores.zones)
  list : t'.list = t.list
  grid : t'.grid = t.grid

theorem grown_seedVehicles (snapshot : List VehicleSnapshotRow) (n : Nat)
    (before : Obj (OrdMap String (Obj Vehicle))) :
    Grown n (Identity.seedVehicles snapshot n).2 before (Identity.seedVehicles snapshot n).1 :=
  grown_mapOf VehicleSnapshotRow.vehicleId
    (fun row => (⟨row.vehicleId, row.status, row.batteryPct⟩ : Vehicle)) snapshot n before

theorem grown_seedAnomalies (snapshot : List AnomalySnapshotRow) (n : Nat)
    (before : Obj (OrdMap String (Obj AnomalyDetectedPayload))) :
    Grown n (Identity.seedAnomalies snapshot n).2 before (Identity.seedAnomalies snapshot n).1 :=
  grown_mapOf AnomalyDetectedPayload.vehicleId (fun row => row) snapshot n before

theorem grown_vehiclePatch (current : Obj (OrdMap String (Obj Vehicle)))
    (patch : VehicleStateChangedPayload) (n : Nat) :
    Grown n (Identity.applyVehiclePatch current patch n).2 current
      (Identity.applyVehiclePatch current patch n).1 := by
  unfold Identity.applyVehiclePatch Identity.patchKnown
  split
  · exact grown_copySet ..
  · exact .unchanged (Nat.le_refl n) current

theorem since_seedZones (snapshot : ZoneCountsSnapshot) (n : Nat)
    (before : Obj (OrdMap String Int)) :
    n ≤ (Identity.seedZones snapshot n).2 ∧
      Since n (Identity.seedZones snapshot n).2 (some before)
        (some (Identity.seedZones snapshot n).1) := by
  -- counts are no objects, so the map is the only one made
  have next : (Identity.seedZones snapshot n).2 = n + 1 :=
    foldlM_next (f := fun (counts : OrdMap String Int) entry => do
      let value ← pure entry.2
      pure (counts.set entry.1 value)) (fun _ _ _ => rfl) snapshot .empty (n + 1)
  rw [next]
  exact ⟨Nat.le_succ n, .alloc _ _ (Nat.lt_succ_self n)⟩

theorem since_zonePatch (current : Obj (OrdMap String Int)) (patch : ZoneCountChangedPayload)
    (n : Nat) :
    n ≤ (Identity.applyZonePatch current patch n).2 ∧
      Since n (Identity.applyZonePatch current patch n).2 (some current)
        (some (Identity.applyZonePatch current patch n).1) := by
  unfold Identity.applyZonePatch Identity.patchKnown
  split
  · exact ⟨Nat.le_succ n, .alloc _ _ (Nat.lt_succ_self n)⟩
  · exact ⟨Nat.le_refl n, .unchanged _⟩

theorem Advance.unmoved {t t' : Tree} (stores : t'.stores = t.stores) (next : t'.next = t.next)
    (list : t'.list = t.list) (grid : t'.grid = t.grid) : Advance t t' := by
  refine ⟨?_, ?_, ?_, list, grid⟩
  · rw [stores, next]
    exact .unchanged (Nat.le_refl _) _
  · rw [stores, next]
    exact .unchanged (Nat.le_refl _) _
  · rw [stores]
    exact .unchanged _

theorem advance_update (t : Tree) (u : Update) : Advance t (t.update u) := by
  cases u with
  | vehicles snapshot =>
    have grown := grown_seedVehicles snapshot t.next t.stores.vehicles
    exact ⟨grown, .unchanged grown.order _, .unchanged _, rfl, rfl⟩
  | anomalies snapshot =>
    have grown := grown_seedAnomalies snapshot t.next t.stores.anomalies
    exact ⟨.unchanged grown.order _, grown, .unchanged _, rfl, rfl⟩
  | zones snapshot =>
    obtain ⟨order, since⟩ := since_seedZones snapshot t.next t.stores.zones
    exact ⟨.unchanged order _, .unchanged order _, since, rfl, rfl⟩
  -- a patch writes one store, and the other two keep what they hold
  | event event =>
    cases event with
    | vehicleStateChanged payload =>
      have grown := grown_vehiclePatch t.stores.vehicles payload t.next
      exact ⟨grown, .unchanged grown.order _, .unchanged _, rfl, rfl⟩
    | anomalyDetected payload =>
      have grown := grown_copySet t.stores.anomalies payload.vehicleId payload t.next
      exact ⟨.unchanged grown.order _, grown, .unchanged _, rfl, rfl⟩
    | zoneCountChanged payload =>
      obtain ⟨order, since⟩ := since_zonePatch t.stores.zones payload t.next
      exact ⟨.unchanged order _, .unchanged order _, since, rfl, rfl⟩
  | dataStatus | announcement | connected => exact .unmoved rfl rfl rfl rfl

/-- The memos are those of objects that have not changed since. -/
structure Coherent (t : Tree) : Prop where
  keyed : Identity.Keyed t.stores.app.vehicles
  vehicles : Made t.next t.stores.vehicles
  anomalies : Made t.next t.stores.anomalies
  zones : t.stores.zones.address < t.next
  list : ∀ l, t.list = some l → ∃ old : VehicleListProps, l = vehicleList.mount old ∧
    old.Keyed ∧ HeldMap t.next old.vehicles t.stores.vehicles ∧
    HeldMap t.next old.anomalies t.stores.anomalies
  grid : ∀ g, t.grid = some g → ∃ old, g = zoneTiles.mount old ∧
    Held t.next old (some t.stores.zones)

namespace Coherent

variable {t t' : Tree}

theorem initial (connected : Bool) : Coherent (Tree.initial connected) where
  keyed := fun _ _ absent => by cases absent
  vehicles := ⟨by simp [Tree.initial], fun _ _ absent => by cases absent⟩
  anomalies := ⟨by simp [Tree.initial], fun _ _ absent => by cases absent⟩
  zones := by simp [Tree.initial]
  list := nofun
  grid := nofun

theorem advance (coherent : Coherent t) (advance : Advance t t')
    (keyed : Identity.Keyed t'.stores.app.vehicles) : Coherent t' where
  keyed := keyed
  vehicles := coherent.vehicles.grown advance.vehicles
  anomalies := coherent.anomalies.grown advance.anomalies
  zones := by
    -- the map of counts is the old one, or one made since
    rcases advance.zones _ rfl with same | new
    · rw [← Option.some.inj same]
      exact Nat.lt_of_lt_of_le coherent.zones advance.vehicles.order
    · exact new.2
  list := by
    intro l mounted
    rw [advance.list] at mounted
    obtain ⟨old, mount, keyed, vehicles, anomalies⟩ := coherent.list l mounted
    exact ⟨old, mount, keyed, vehicles.grown advance.vehicles, anomalies.grown advance.anomalies⟩
  grid := by
    intro g mounted
    rw [advance.grid] at mounted
    obtain ⟨old, mount, zones⟩ := coherent.grid g mounted
    exact ⟨old, mount, zones.since advance.zones advance.vehicles.order⟩

theorem keyed_update (coherent : Coherent t) (u : Update) :
    Identity.Keyed (t.update u).stores.app.vehicles := by
  have shown : (t.update u).stores.app = (t.shown.update u).app :=
    congrArg Shown.app (shown_update t u)
  rw [shown]
  cases u with
  | vehicles snapshot => exact Identity.keyed_seedVehicles snapshot
  | event event => exact Identity.keyed_onEvent coherent.keyed event
  | anomalies | zones | dataStatus | announcement | connected => exact coherent.keyed

theorem update (coherent : Coherent t) (u : Update) : Coherent (t.update u) :=
  coherent.advance (advance_update t u) (coherent.keyed_update u)

end Coherent

/-! ### The page -/

theorem list_eq {t : Tree} (coherent : Coherent t) :
    vehicleList.render t.list t.listProps = vehicleList.mount t.listProps := by
  cases mounted : t.list with
  | none => exact vehicleList.render_eq none nofun
  | some l =>
    obtain ⟨old, rfl, keyed, vehicles, anomalies⟩ := coherent.list l mounted
    refine vehicleList.render_eq (some old) ?_
    rintro _ ⟨rfl⟩
    exact VehicleListProps.alike keyed coherent.keyed vehicles anomalies

theorem grid_eq {t : Tree} (coherent : Coherent t) :
    zoneTiles.render t.grid t.stores.zones = zoneTiles.mount t.stores.zones := by
  cases mounted : t.grid with
  | none => exact zoneTiles.render_eq none nofun
  | some g =>
    obtain ⟨old, rfl, zones⟩ := coherent.grid g mounted
    refine zoneTiles.render_eq (some old) ?_
    rintro _ ⟨rfl⟩
    refine ⟨fun same => zones.eq_of_is same, ?_⟩
    intro child member q found same
    obtain ⟨id, count⟩ := of_decide_eq_true same
    cases q
    exact congr (congrArg ZoneTileProps.mk id) count

theorem coherent_render {t : Tree} (coherent : Coherent t) : Coherent t.render where
  keyed := coherent.keyed
  vehicles := coherent.vehicles
  anomalies := coherent.anomalies
  zones := coherent.zones
  list := by
    intro l mounted
    -- a list that is mounted has been given the maps of this render
    simp only [render, list_eq coherent] at mounted
    split at mounted
    · cases mounted
    · cases mounted
      exact ⟨_, rfl, coherent.keyed, coherent.vehicles.held, coherent.anomalies.held⟩
  grid := by
    intro g mounted
    simp only [render, grid_eq coherent] at mounted
    split at mounted
    · cases mounted
    · cases mounted
      exact ⟨_, rfl, .self coherent.zones⟩

theorem outputs_list (t : Tree) : (vehicleList.mount t.listProps).outputs =
    vehicleViews t.shown.app.vehicles t.shown.app.anomalies := by
  have output : ∀ vehicle : Obj Vehicle, vehicleRow.body
      ⟨vehicle, t.stores.anomalies.contents.get? vehicle.contents.vehicleId⟩ =
        vehicleRowImpl vehicle.contents
          (t.shown.app.anomalies.get? vehicle.contents.vehicleId) := by
    intro vehicle
    exact congrArg (vehicleRowImpl vehicle.contents) (OrdMap.get?_map ..).symm
  have values : t.shown.app.vehicles.entries =
      t.stores.vehicles.contents.entries.map fun entry => (entry.1, entry.2.contents) := rfl
  simp only [MountedList.outputs, Listing.mount, Component.mountAll, vehicleViews, vehicleList,
    VehicleListProps.rows, Component.mount, List.map_map, values]
  apply List.map_congr_left
  intro entry _
  exact output entry.2

theorem outputs_grid (t : Tree) : (zoneTiles.mount t.stores.zones).outputs =
    zoneViews t.shown.app.zones := by
  simp only [MountedList.outputs, Listing.mount, Component.mountAll, zoneViews, zoneTiles,
    Component.mount, List.map_map]
  rfl

theorem vehiclesEmpty_iff (t : Tree) : t.vehiclesEmpty = true ↔
    t.shown.dataStatus = .ok ∧ t.shown.app.vehicles.entries.length = 0 := by
  rw [vehiclesEmpty, decide_eq_true_iff]
  exact and_congr_right fun _ => by rw [shown, Stores.app, OrdMap.map, List.length_map]

theorem zonesEmpty_iff (t : Tree) : t.zonesEmpty = true ↔
    t.shown.dataStatus = .ok ∧ t.shown.app.zones.entries.length = 0 :=
  decide_eq_true_iff

/-- The memoised components show what they would without memos. -/
theorem page_render {t : Tree} (coherent : Coherent t) : t.render.page = some t.shown.page := by
  simp only [render, Shown.page, list_eq coherent, grid_eq coherent, outputs_list, outputs_grid,
    vehiclesEmpty_iff, zonesEmpty_iff]
  rfl

theorem coherent_act {t : Tree} (coherent : Coherent t) (a : Act) : Coherent (t.act a) := by
  cases a with
  | update u => exact coherent.update u
  | render => exact coherent_render coherent

theorem coherent_run {t : Tree} (coherent : Coherent t) (acts : List Act) :
    Coherent (t.run acts) :=
  List.foldlRecOn acts _ coherent fun _ coherent a _ => coherent_act coherent a

theorem shown_run (t : Tree) (acts : List Act) :
    (t.run acts).shown = (Act.updates acts).foldl Shown.update t.shown := by
  induction acts generalizing t with
  | nil => rfl
  | cons a acts ih =>
    rw [run, List.foldl_cons]
    refine (ih (t.act a)).trans ?_
    cases a with
    | update u =>
      rw [act, shown_update]
      rfl
    | render => rfl

/-- Whatever is set, folded and rendered in whatever order, a render leaves on the page what
rendering everything from the plain values would. -/
theorem page_unmemoised (connected : Bool) (acts : List Act) :
    ((initial connected).run acts).render.page =
      some ((Act.updates acts).foldl Shown.update ⟨.initial, .loading, "", connected⟩).page := by
  rw [page_render (coherent_run (.initial connected) acts), shown_run]
  rfl

/-! ### What a render runs -/

end Tree

/-- The update is the fold of a patch for the entry. -/
def Update.touches (cell : Cell) : Update → Bool
  | .event e => decide (e.cell = cell)
  | .vehicles _ | .anomalies _ | .zones _ | .dataStatus _ | .announcement _ | .connected _ => false

def Update.seeds : Update → Bool
  | .vehicles _ | .anomalies _ | .zones _ => true
  | .event _ | .dataStatus _ | .announcement _ | .connected _ => false

namespace Tree

variable {t : Tree} {u : Update}

theorem keys_update (live : u.seeds = false) :
    (t.update u).stores.vehicles.contents.keys = t.stores.vehicles.contents.keys ∧
      (t.update u).stores.zones.contents.keys = t.stores.zones.contents.keys := by
  cases u with
  | vehicles | anomalies | zones => cases live
  | event event => exact Identity.keys_onEvent t.stores event t.next
  | dataStatus | announcement | connected => exact ⟨rfl, rfl⟩

theorem vehicle_remade {id : String} (live : u.seeds = false)
    (known : id ∈ t.stores.vehicles.contents.keys) :
    Remade t.next (t.stores.vehicles.contents.get? id)
      ((t.update u).stores.vehicles.contents.get? id) (u.touches (.vehicle id)) := by
  cases u with
  | vehicles | anomalies | zones => cases live
  | dataStatus | announcement | connected => exact rfl
  | event event =>
    -- a patch of another cell leaves the object, its own makes a new one
    by_cases touched : event.cell = .vehicle id
    · cases event with
      | anomalyDetected | zoneCountChanged => cases touched
      | vehicleStateChanged payload =>
        obtain rfl : payload.vehicleId = id := Cell.vehicle.inj touched
        have fresh := (Identity.applyVehiclePatch_fresh known t.next).2
        simp only [Remade, Update.touches, touched, decide_true, if_true]
        exact ⟨_, fresh, Nat.le_succ t.next⟩
    · simp only [Remade, Update.touches, touched, decide_false]
      exact Identity.vehicle_kept t.next touched

theorem anomaly_remade (id : String) (live : u.seeds = false) :
    Remade t.next (t.stores.anomalies.contents.get? id)
      ((t.update u).stores.anomalies.contents.get? id) (u.touches (.anomaly id)) := by
  cases u with
  | vehicles | anomalies | zones => cases live
  | dataStatus | announcement | connected => exact rfl
  | event event =>
    by_cases touched : event.cell = .anomaly id
    · cases event with
      | vehicleStateChanged | zoneCountChanged => cases touched
      | anomalyDetected payload =>
        obtain rfl : payload.vehicleId = id := Cell.anomaly.inj touched
        simp only [Remade, Update.touches, touched, decide_true, if_true]
        exact ⟨_, OrdMap.get?_set_self .., Nat.le_succ t.next⟩
    · simp only [Remade, Update.touches, touched, decide_false]
      exact Identity.anomaly_kept t.next touched

/-- Updates between two renders. -/
def updates (t : Tree) (us : List Update) : Tree := us.foldl Tree.update t

/-- What a list of updates since a render has left, next to what the render has seen. -/
structure Patched (before : Tree) (us : List Update) (after : Tree) : Prop where
  coherent : Coherent after
  order : before.next ≤ after.next
  list : after.list = before.list
  grid : after.grid = before.grid
  vehicleKeys : after.stores.vehicles.contents.keys = before.stores.vehicles.contents.keys
  zoneKeys : after.stores.zones.contents.keys = before.stores.zones.contents.keys
  vehicle : ∀ id ∈ before.stores.vehicles.contents.keys,
    Remade before.next (before.stores.vehicles.contents.get? id)
      (after.stores.vehicles.contents.get? id) (us.any (Update.touches (.vehicle id)))
  anomaly : ∀ id, Remade before.next (before.stores.anomalies.contents.get? id)
      (after.stores.anomalies.contents.get? id) (us.any (Update.touches (.anomaly id)))

theorem patched_updates (coherent : Coherent t) {us : List Update}
    (live : ∀ u ∈ us, u.seeds = false) : Patched t us (t.updates us) := by
  -- the last update is split off: it makes some objects anew and keeps the others
  induction us using List.reverseRecOn with
  | nil => exact ⟨coherent, Nat.le_refl _, rfl, rfl, rfl, rfl, fun _ _ => rfl, fun _ => rfl⟩
  | append_singleton us u ih =>
    have patched := ih fun u' member => live u' (List.mem_append_left _ member)
    have here : u.seeds = false := live u (by simp)
    have advance := advance_update (t.updates us) u
    have keys := keys_update (t := t.updates us) here
    have step : t.updates (us ++ [u]) = (t.updates us).update u := by
      rw [updates, List.foldl_append]
      rfl
    rw [step]
    constructor
    · exact patched.coherent.update u
    · exact Nat.le_trans patched.order advance.vehicles.order
    · exact advance.list.trans patched.list
    · exact advance.grid.trans patched.grid
    · exact keys.1.trans patched.vehicleKeys
    · exact keys.2.trans patched.zoneKeys
    · intro id known
      -- no update removes a row, so one that was there is there for the last one
      have now := known
      rw [← patched.vehicleKeys] at now
      have last := vehicle_remade here now
      rw [List.any_append, List.any_cons, List.any_nil, Bool.or_false]
      exact (patched.vehicle id known).trans last patched.order
    · intro id
      rw [List.any_append, List.any_cons, List.any_nil, Bool.or_false]
      exact (patched.anomaly id).trans (anomaly_remade id here) patched.order

theorem length_ne_zero {K V : Type} {m : OrdMap K V} (listed : m.keys ≠ []) :
    m.entries.length ≠ 0 := by
  intro none_listed
  apply listed
  rw [OrdMap.keys, List.length_eq_zero_iff.mp none_listed, List.map_nil]

theorem vehiclesEmpty_listed (listed : t.stores.vehicles.contents.keys ≠ []) :
    t.vehiclesEmpty = false :=
  decide_eq_false fun empty => length_ne_zero listed empty.2

theorem zonesEmpty_listed (listed : t.stores.zones.contents.keys ≠ []) : t.zonesEmpty = false :=
  decide_eq_false fun empty => length_ne_zero listed empty.2

theorem list_render (coherent : Coherent t) (listed : t.stores.vehicles.contents.keys ≠ []) :
    t.render.list = some (vehicleList.mount t.render.listProps) := by
  have shown : t.render.list = if t.vehiclesEmpty then none
      else some (vehicleList.render t.list t.listProps) := rfl
  rw [shown, vehiclesEmpty_listed listed, list_eq coherent]
  rfl

theorem grid_render (coherent : Coherent t) (listed : t.stores.zones.contents.keys ≠ []) :
    t.render.grid = some (zoneTiles.mount t.render.stores.zones) := by
  have shown : t.render.grid = if t.zonesEmpty then none
      else some (zoneTiles.render t.grid t.stores.zones) := rfl
  rw [shown, zonesEmpty_listed listed, grid_eq coherent]
  rfl

theorem rowsRan_render (t : Tree) :
    t.render.rowsRan = if t.vehiclesEmpty then [] else vehicleList.ran t.list t.listProps := rfl

theorem tilesRan_render (t : Tree) :
    t.render.tilesRan = if t.zonesEmpty then [] else zoneTiles.ran t.grid t.stores.zones := rfl

theorem Patched.rows {before after : Tree} {us : List Update} (patched : Patched before us after)
    (coherent : Coherent before)
    (mounted : before.list = some (vehicleList.mount before.listProps)) :
    vehicleList.ran after.list after.listProps =
      before.stores.vehicles.contents.keys.filter fun id =>
        us.any (Update.touches (.vehicle id)) || us.any (Update.touches (.anomaly id)) := by
  have old : before.listProps.Keyed := coherent.keyed
  have now : after.listProps.Keyed := patched.coherent.keyed
  have keys : (vehicleList.children after.listProps).map Prod.fst =
      after.stores.vehicles.contents.keys := VehicleListProps.rows_keys now
  have still := mounted
  rw [← patched.list] at still
  obtain ⟨props, mount, _, vehicles, anomalies⟩ := patched.coherent.list _ still
  obtain rfl : before.listProps = props := congrArg MountedList.props mount
  have alike := VehicleListProps.alike old now vehicles anomalies
  have unique : (vehicleList.children after.listProps).map Prod.fst |>.Nodup := by
    rw [keys]
    exact after.stores.vehicles.contents.nodup
  have reflexive : ∀ q, vehicleRow.same q q = true := by
    intro q
    cases anomaly : q.anomaly <;> simp [vehicleRow, Obj.isOptional, Obj.is, anomaly]
  rw [still, vehicleList.ran_eq reflexive unique alike.list, ← patched.vehicleKeys, ← keys,
    List.filter_map]
  congr 1
  apply List.filter_congr
  intro child member
  obtain ⟨vehicle, anomaly⟩ := VehicleListProps.rows_of_mem now member
  have known : child.1 ∈ before.stores.vehicles.contents.keys := by
    rw [← patched.vehicleKeys, OrdMap.mem_keys_iff]
    exact Option.isSome_iff_exists.mpr ⟨_, vehicle⟩
  obtain ⟨o, found⟩ := Option.isSome_iff_exists.mp ((OrdMap.mem_keys_iff _ _).mp known)
  have row : (vehicleList.children before.listProps).lookup child.1 =
      some ⟨o, before.stores.anomalies.contents.get? child.1⟩ := by
    refine (VehicleListProps.rows_lookup old child.1).trans ?_
    exact congrArg (Option.map _) found
  -- either reference of the row differs just where a patch has made its object anew
  have vehicleSame : o.is child.2.vehicle = !us.any (Update.touches (.vehicle child.1)) := by
    have remade := patched.vehicle child.1 known
    have now : after.stores.vehicles.contents.get? child.1 = some child.2.vehicle := vehicle
    rw [found, now] at remade
    exact remade.is_optional fun _ same => by cases same; exact coherent.vehicles.entries _ _ found
  have anomalySame : Obj.isOptional (before.stores.anomalies.contents.get? child.1)
      child.2.anomaly = !us.any (Update.touches (.anomaly child.1)) := by
    rw [← anomaly]
    exact (patched.anomaly child.1).is_optional (coherent.anomalies.entries child.1)
  rw [row]
  simp only [vehicleList, vehicleRow, vehicleSame, anomalySame, Function.comp, Bool.not_and,
    Bool.not_not]

theorem tiles_keys (zones : Obj (OrdMap String Int)) :
    (zoneTiles.children zones).map Prod.fst = zones.contents.keys := List.map_map

theorem tiles_lookup (zones : Obj (OrdMap String Int)) (id : String) :
    (zoneTiles.children zones).lookup id = (zones.contents.get? id).map fun count => ⟨id, count⟩ :=
  OrdMap.lookup_map_value (fun id count => (⟨id, count⟩ : ZoneTileProps)) _ id

theorem Patched.tiles {before after : Tree} {us : List Update} (patched : Patched before us after)
    (mounted : before.grid = some (zoneTiles.mount before.stores.zones)) :
    zoneTiles.ran after.grid after.stores.zones =
      before.stores.zones.contents.keys.filter fun id =>
        decide (after.stores.zones.contents.get? id ≠ before.stores.zones.contents.get? id) := by
  have keys := tiles_keys after.stores.zones
  -- patches render nothing, so the tiles are those of the first render
  have still := mounted
  rw [← patched.grid] at still
  obtain ⟨zones, mount, held⟩ := patched.coherent.grid _ still
  obtain rfl : before.stores.zones = zones := congrArg MountedList.props mount
  have unique : (zoneTiles.children after.stores.zones).map Prod.fst |>.Nodup := by
    rw [keys]
    exact after.stores.zones.contents.nodup
  have reflexive : ∀ q, zoneTile.same q q = true := fun q => by simp [zoneTile]
  rw [still, zoneTiles.ran_eq reflexive unique held.eq_of_is, ← patched.zoneKeys, ← keys,
    List.filter_map]
  congr 1
  -- a tile is compared by its count, and the ids of the two renders are the same
  apply List.filter_congr
  intro child member
  obtain ⟨entry, stored, rfl⟩ := List.mem_map.mp member
  have count : after.stores.zones.contents.get? entry.1 = some entry.2 :=
    OrdMap.lookup_of_mem after.stores.zones.contents.nodup stored
  have known : entry.1 ∈ before.stores.zones.contents.keys := by
    rw [← patched.zoneKeys, OrdMap.mem_keys_iff, count]
    rfl
  obtain ⟨old, found⟩ := Option.isSome_iff_exists.mp ((OrdMap.mem_keys_iff _ _).mp known)
  rw [tiles_lookup, found]
  simp only [zoneTiles, zoneTile, Function.comp, Option.map_some, count, found, true_and, ne_eq,
    Option.some.injEq, decide_not, eq_comm]

/-- Between two renders only patches, statuses, announcements and connection changes have
come: the second runs, in order, the rows of which the vehicle or the anomaly was patched and
the tiles whose count differs from the one shown, each once, and no others. -/
theorem ran_patched (connected : Bool) (acts : List Act) (us : List Update)
    (live : ∀ u ∈ us, u.seeds = false) :
    let before := ((initial connected).run acts).render
    let after := before.updates us
    after.render.rowsRan = before.shown.app.vehicles.keys.filter (fun id =>
      us.any (Update.touches (.vehicle id)) || us.any (Update.touches (.anomaly id))) ∧
    after.render.tilesRan = before.shown.app.zones.keys.filter fun id =>
      decide (after.shown.app.zones.get? id ≠ before.shown.app.zones.get? id) := by
  intro before after
  have coherent := coherent_run (.initial connected) acts
  have patched : Patched before us after := patched_updates (coherent_render coherent) live
  have vehicleKeys : before.shown.app.vehicles.keys = before.stores.vehicles.contents.keys :=
    OrdMap.keys_map ..
  rw [vehicleKeys, rowsRan_render, tilesRan_render]
  constructor
  · by_cases listed : before.stores.vehicles.contents.keys = []
    -- without vehicles there are no rows, whether the empty state is shown or not
    · have nothing : vehicleList.children after.listProps = [] := by
        rw [← List.map_eq_nil_iff (f := Prod.fst), ← listed, ← patched.vehicleKeys]
        exact VehicleListProps.rows_keys patched.coherent.keyed
      rw [vehicleList.ran_nil _ nothing, ite_self, listed]
      rfl
    · have still : after.stores.vehicles.contents.keys ≠ [] := by rwa [patched.vehicleKeys]
      rw [vehiclesEmpty_listed still]
      exact patched.rows (coherent_render coherent) (list_render coherent listed)
  · by_cases listed : before.stores.zones.contents.keys = []
    · have nothing : zoneTiles.children after.stores.zones = [] := by
        rw [← List.map_eq_nil_iff (f := Prod.fst), tiles_keys, patched.zoneKeys, listed]
      have none_listed : before.shown.app.zones.keys = [] := listed
      rw [zoneTiles.ran_nil _ nothing, ite_self, none_listed]
      rfl
    · have still : after.stores.zones.contents.keys ≠ [] := by rwa [patched.zoneKeys]
      rw [zonesEmpty_listed still]
      exact patched.tiles (grid_render coherent listed)

def loaded : List Act :=
  [.update (.vehicles [⟨"v-1", "idle", .finite 80⟩, ⟨"v-2", "moving", .finite 15⟩]),
    .update (.zones [("aisle_a", 3)]), .update (.dataStatus .ok)]

-- An anomaly of an unknown vehicle, a patch of the second row, and a count that stays.
def patches : List Update :=
  [.event (.anomalyDetected ⟨"v-9", "teleport", none, "2026-06-16T02:00:00Z"⟩),
    .event (.vehicleStateChanged ⟨"v-2", "fault", .finite 14⟩),
    .event (.zoneCountChanged ⟨"aisle_a", 3⟩)]

theorem ran_patched_unknown :
    let after := ((initial true).run loaded).render.updates patches
    after.render.rowsRan = ["v-2"] ∧ after.render.tilesRan = [] := by
  obtain ⟨rows, tiles⟩ := ran_patched true loaded patches (by decide)
  exact ⟨rows.trans (by decide +kernel), tiles.trans (by decide +kernel)⟩

end Tree

end FleetTelemetry.Frontend
