import FleetTelemetry.Store.Schema

/-!
# Migration files

What a migration's SQL can do. A file is a script that reads the database as its transaction
sees it and either fails or answers a change, which is made when the transaction commits.
The runner sends a file's text as it is, so a script may change anything: the schema, the rows
and the bookkeeping table of the runner itself. The shipped files only define data.
-/

namespace FleetTelemetry.Migrate

open Foundations

structure Schema where
  /-- The columns of each table. -/
  tables : OrdMap String (List String)
  indexes : List String
  publications : OrdMap String (List String)
  replicaIdentityFull : List String

def Schema.empty : Schema := ⟨.empty, [], .empty, []⟩

namespace Schema

def hasTable (schema : Schema) (table : String) : Bool := schema.tables.has table

def hasColumns (schema : Schema) (table : String) (columns : List String) : Bool :=
  match schema.tables.get? table with
  | some known => columns.all fun column => known.contains column
  | none => false

end Schema

structure Database where
  schema : Schema
  /-- The rows of `schema_migrations`, and `none` before the table exists. -/
  versions : Option (List String)
  rows : Db

/-- What a file's SQL did: the change, and whether the file ends the transaction it is sent
in with a `COMMIT` of its own. -/
structure SqlEffect where
  change : Database → Database
  commits : Bool

/-- A file's SQL, run on the database as its transaction sees it; `none` if it fails. -/
abbrev Script := Database → Option SqlEffect

/-- The counter of the zone has not been lowered, and a row it had is still there. -/
def GrownAt (zone : String) (before after : OrdMap String Int) : Prop :=
  ∀ n, before.get? zone = some n → ∃ n', after.get? zone = some n' ∧ n ≤ n'

theorem GrownAt.refl (zone : String) (counts : OrdMap String Int) : GrownAt zone counts counts :=
  fun n present => ⟨n, present, le_refl n⟩

theorem GrownAt.trans {zone : String} {before mid after : OrdMap String Int}
    (first : GrownAt zone before mid) (second : GrownAt zone mid after) :
    GrownAt zone before after := by
  intro n present
  obtain ⟨m, found, le⟩ := first n present
  obtain ⟨n', found', le'⟩ := second m found
  exact ⟨n', found', le.trans le'⟩

namespace SqlEffect

/-- The SQL stays inside its transaction and leaves `schema_migrations` alone. -/
structure Contained (effect : SqlEffect) : Prop where
  open_transaction : effect.commits = false
  versions : ∀ db, (effect.change db).versions = db.versions

def KeepsCount (zone : String) (effect : SqlEffect) : Prop :=
  ∀ db, GrownAt zone db.rows.zoneCounts (effect.change db).rows.zoneCounts

end SqlEffect

def Script.Contained (script : Script) : Prop :=
  ∀ seen effect, script seen = some effect → effect.Contained

section Ddl

/-- The statements of the shipped files, each of which skips what is already there. -/
inductive Ddl where
  | createTable (table : String) (columns : List String)
  | addColumns (table : String) (columns : List String)
  /-- The columns are those the index or its predicate names. -/
  | createIndex (index table : String) (columns : List String)
  | createPublication (publication : String) (tables : List String)
  | replicaIdentityFull (table : String)

def Ddl.run (schema : Schema) : Ddl → Option Schema
  | createTable table columns =>
    some (if schema.hasTable table then schema
      else { schema with tables := schema.tables.set table columns })
  | addColumns table columns =>
    (schema.tables.get? table).map fun known =>
      { schema with
        tables := schema.tables.set table
          (known ++ columns.filter fun column => !known.contains column) }
  | createIndex index table columns =>
    if !schema.hasTable table then none
    else if schema.indexes.contains index then some schema
    else if !schema.hasColumns table columns then none
    else some { schema with indexes := schema.indexes ++ [index] }
  | createPublication publication tables =>
    if schema.publications.has publication then some schema
    else if tables.all schema.hasTable then
      some { schema with publications := schema.publications.set publication tables }
    else none
  | replicaIdentityFull table =>
    if !schema.hasTable table then none
    else if schema.replicaIdentityFull.contains table then some schema
    else some { schema with replicaIdentityFull := schema.replicaIdentityFull ++ [table] }

/-- A file of such statements. -/
def ddl (statements : List Ddl) : Script := fun seen =>
  (statements.foldlM Ddl.run seen.schema).map fun schema =>
    ⟨fun db => { db with schema := schema }, false⟩

/-- A file of such statements changes the schema and nothing else. -/
theorem ddl_effect {statements : List Ddl} {seen : Database} {effect : SqlEffect}
    (done : ddl statements seen = some effect) :
    ∃ schema, effect = ⟨fun db => { db with schema := schema }, false⟩ := by
  obtain ⟨schema, _, rfl⟩ := Option.map_eq_some_iff.mp done
  exact ⟨schema, rfl⟩

theorem ddl_contained (statements : List Ddl) : (ddl statements).Contained := by
  intro seen effect done
  obtain ⟨schema, rfl⟩ := ddl_effect done
  exact ⟨rfl, fun _ => rfl⟩

end Ddl

section Shipped

def createRawEvents : List Ddl :=
  [.createTable "raw_events"
      ["id", "vehicle_id", "status", "battery_pct", "recorded_at", "received_at"],
    .createIndex "idx_raw_events_vehicle_id" "raw_events" ["vehicle_id"],
    .createIndex "idx_raw_events_recorded_at" "raw_events" ["recorded_at"]]

def createVehicleCurrentState : List Ddl :=
  [.createTable "vehicle_current_state"
      ["vehicle_id", "status", "battery_pct", "recorded_at", "updated_at"],
    .createIndex "idx_vehicle_current_state_status" "vehicle_current_state" ["status"]]

def createZoneCounts : List Ddl :=
  [.createTable "zone_counts" ["zone_id", "entry_count"]]

def createAnomalies : List Ddl :=
  [.createTable "anomalies" ["id", "vehicle_id", "anomaly_type", "detail", "detected_at"],
    .createIndex "idx_anomalies_vehicle_detected" "anomalies" ["vehicle_id", "detected_at"]]

def extendCurrentState : List Ddl :=
  [.addColumns "vehicle_current_state" ["speed_mps", "pos_x", "pos_y"]]

def createVehicles : List Ddl :=
  [.createTable "vehicles" ["vehicle_id", "status", "updated_at"]]

def createMissions : List Ddl :=
  [.createTable "missions" ["mission_id", "vehicle_id", "status", "created_at"],
    .createIndex "uq_active_mission_per_vehicle" "missions" ["vehicle_id", "status"],
    .createIndex "idx_missions_vehicle_status" "missions" ["vehicle_id", "status"]]

def createMaintenanceRecords : List Ddl :=
  [.createTable "maintenance_records"
      ["id", "vehicle_id", "mission_id", "reason", "opened_at", "resolved_at"],
    .createIndex "uq_open_maintenance_per_vehicle" "maintenance_records"
      ["vehicle_id", "resolved_at"]]

def createCdcPublication : List Ddl :=
  [.createPublication "fleet_events_pub" ["vehicle_current_state", "anomalies", "zone_counts"],
    .replicaIdentityFull "vehicle_current_state",
    .replicaIdentityFull "zone_counts"]

/-- The files under `app/migrations`. -/
def shippedFiles : List (String × List Ddl) :=
  [("0001_create_raw_events.sql", createRawEvents),
    ("0002_create_vehicle_current_state.sql", createVehicleCurrentState),
    ("0003_create_zone_counts.sql", createZoneCounts),
    ("0004_create_anomalies.sql", createAnomalies),
    ("0005_extend_current_state.sql", extendCurrentState),
    ("0006_create_vehicles.sql", createVehicles),
    ("0007_create_missions.sql", createMissions),
    ("0008_create_maintenance_records.sql", createMaintenanceRecords),
    ("0009_create_cdc_publication.sql", createCdcPublication)]

end Shipped

end FleetTelemetry.Migrate
