import FleetTelemetry.Foundations.Machine
import FleetTelemetry.Service.Effects
import FleetTelemetry.Migrate.Files
import Mathlib.Data.List.Sort
import Mathlib.Data.String.Basic

/-!
# The migration runner

`run_migrations` as a machine that sends one statement after the other. Its two transactions
collect the change they are going to make and make it at their commit, on the database as it is
by then: telemetry is committed at any time in between. The call can fail at each statement,
and files can appear at any time. What became of a call, and of its two transactions, is
kept in a log.
-/

namespace FleetTelemetry.Migrate

open Foundations

section Statements

/-- `_ENSURE_TABLE`. -/
def ensureTable (db : Database) : Database :=
  { db with versions := some (db.versions.getD []) }

/-- `INSERT INTO schema_migrations (version) VALUES (%s)`. -/
def insertVersion (version : String) (db : Database) : Database :=
  { db with versions := db.versions.map fun versions => versions ++ [version] }

/-- `_SEED_ZONE`, which does nothing on a conflict. -/
def seedZone (zone : String) (db : Database) : Database :=
  { db with
    rows.zoneCounts :=
      if db.rows.zoneCounts.has zone then db.rows.zoneCounts else db.rows.zoneCounts.set zone 0 }

/-- `_migration_files`: the paths that match `*.sql`, by name. -/
def migrationFiles (directory : OrdMap String Script) : List (String × Script) :=
  (directory.entries.filter fun file => ".sql".toList.isSuffixOf file.1.toList).insertionSort
    fun file file' => file.1 ≤ file'.1

/-- The tables and columns the statements of `persist_telemetry` name for an event. -/
def telemetryColumns (event : TelemetryEvent) (anomalies : List Firing) :
    List (String × List String) :=
  [("raw_events", ["vehicle_id", "status", "battery_pct", "recorded_at"]),
    ("vehicle_current_state", ["vehicle_id", "status", "battery_pct", "speed_mps", "pos_x",
      "pos_y", "recorded_at", "updated_at"])] ++
  (if event.zoneEntered.isSome then [("zone_counts", ["zone_id", "entry_count"])] else []) ++
  if anomalies.isEmpty then []
  else [("anomalies", ["vehicle_id", "anomaly_type", "detail", "detected_at"])]

end Statements

/-- The statement a call is about to send. -/
inductive Phase where
  | idle
  | ensureTable
  | selectVersions
  | listFiles (done : List String)
  | nextFile (done : List String) (rest : List (String × Script))
  | insertVersion (done : List String) (version : String) (rest : List (String × Script))
  | seedZones
  | seedZone (rest : List String)

/-- The files whose SQL a call has run, each with what it did. -/
abbrev Executed := List (String × SqlEffect)

inductive Outcome where
  /-- The migration transaction was committed, to the database as it was then. -/
  | migrated (executed : Executed) (seen : List String) (before after : Database)
  /-- The call failed before that, having begun with the first database. -/
  | failed (before after : Database)
  /-- The call failed after that. -/
  | raised
  | returned (applied : List String) (executed : Executed) (before after : Database)

structure Runner where
  directory : OrdMap String Script
  /-- The committed database. -/
  db : Database
  phase : Phase
  /-- What the open transaction has changed so far. -/
  change : Database → Database
  applied : List String
  executed : Executed
  /-- The names the call has listed. -/
  seen : List String
  /-- The committed database when the call began. -/
  begun : Database
  log : List Outcome

inductive Action where
  | gain (name : String) (script : Script)
  | telemetry (event : TelemetryEvent) (prior : Option CurrentState)
  | call
  | advance
  | fail

namespace Runner

/-- Before the first call, on a database that has no `schema_migrations` yet. -/
def start (schema : Schema) (rows : Db) : Runner :=
  let db := ⟨schema, none, rows⟩
  { directory := .empty, db := db, phase := .idle, change := id, applied := [], executed := [],
    seen := [], begun := db, log := [] }

def gain (s : Runner) (name : String) (script : Script) : Option Runner :=
  if s.directory.has name then none
  else some { s with directory := s.directory.set name script }

/-- A committed event. Its rules may have read a prior state that has been replaced since. -/
def telemetry (s : Runner) (event : TelemetryEvent) (prior : Option CurrentState) :
    Option Runner :=
  match detectAnomalies event prior with
  | .error _ => none
  | .ok anomalies =>
    if (telemetryColumns event anomalies).all fun t => s.db.schema.hasColumns t.1 t.2 then
      some { s with db.rows := ingest event anomalies s.db.rows }
    else none

def call (s : Runner) : Option Runner :=
  match s.phase with
  | .idle => some { s with
      phase := .ensureTable, change := id, applied := [], executed := [], seen := [],
      begun := s.db }
  | _ => none

/-- A file on record is passed over, any other is executed. -/
def nextFile (s : Runner) (done : List String) (version : String) (script : Script)
    (rest : List (String × Script)) : Option Runner :=
  if version ∈ done then some { s with phase := .nextFile done rest }
  else (script (s.change s.db)).map fun effect =>
    let sent := { s with
      phase := .insertVersion done version rest
      executed := s.executed ++ [(version, effect)] }
    -- a `COMMIT` in the file takes everything before it along, and a new transaction begins
    if effect.commits then { sent with db := effect.change (s.change s.db), change := id }
    else { sent with change := fun db => effect.change (s.change db) }

/-- The primary key refuses a version that is on record. -/
def recordVersion (s : Runner) (done : List String) (version : String)
    (rest : List (String × Script)) : Option Runner :=
  match (s.change s.db).versions with
  | none => none
  | some versions =>
    if version ∈ versions then none
    else some { s with
      phase := .nextFile done rest
      change := fun db => insertVersion version (s.change db)
      applied := s.applied ++ [version] }

/-- The next statement is sent and succeeds. -/
def advance (s : Runner) : Option Runner :=
  match s.phase with
  | .idle => none
  | .ensureTable => some { s with phase := .selectVersions, change := ensureTable }
  | .selectVersions =>
    (s.change s.db).versions.map fun done => { s with phase := .listFiles done }
  | .listFiles done =>
    let files := migrationFiles s.directory
    some { s with phase := .nextFile done files, seen := files.map Prod.fst }
  | .nextFile done ((version, script) :: rest) => s.nextFile done version script rest
  | .insertVersion done version rest => s.recordVersion done version rest
  -- the loop is over, and its transaction is committed
  | .nextFile _ [] => some { s with
      phase := .seedZones
      db := s.change s.db
      log := s.log ++ [.migrated s.executed s.seen s.db (s.change s.db)] }
  | .seedZones => some { s with phase := .seedZone zones, change := id }
  | .seedZone (zone :: rest) =>
    if s.db.schema.hasColumns "zone_counts" ["zone_id", "entry_count"] then
      some { s with phase := .seedZone rest, change := fun db => seedZone zone (s.change db) }
    else none
  | .seedZone [] => some { s with
      phase := .idle
      db := s.change s.db
      log := s.log ++ [.returned s.applied s.executed s.begun (s.change s.db)] }

/-- The statement, or the commit, fails: the open transaction is rolled back. -/
def fail (s : Runner) : Option Runner :=
  match s.phase with
  | .idle => none
  | .seedZones | .seedZone _ => some { s with phase := .idle, log := s.log ++ [.raised] }
  | _ => some { s with phase := .idle, log := s.log ++ [.failed s.begun s.db] }

def step (s : Runner) : Action → Option Runner
  | .gain name script => s.gain name script
  | .telemetry event prior => s.telemetry event prior
  | .call => s.call
  | .advance => s.advance
  | .fail => s.fail

end Runner

end FleetTelemetry.Migrate
