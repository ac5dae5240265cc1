import FleetTelemetry.Foundations.Interleaving
import FleetTelemetry.Foundations.Schedule
import FleetTelemetry.Store.Persistence

/-!
# The write side of the service

The three operations that write: the two routes of the ingestion API and the watchdog's
sweep. Each runs one transaction of `persistence.py`; the routes then map its outcome to
a response. `serve` runs one call alone, `Reachable` runs any number of them interleaved.
-/

namespace FleetTelemetry

open Foundations

inductive Call where
  | postTelemetry (event : TelemetryEvent)
  | postVehicleStatus (vehicleId : String) (update : VehicleStatusUpdate)
  | sweep (now : Int)

inductive Reply where
  | accepted
  | applied (applied : Bool)
  | flagged (vehicles : Nat)
  deriving DecidableEq, Repr

/-- The transaction `post_vehicle_status` delegates to. -/
def statusTransaction (vehicleId : String) (update : VehicleStatusUpdate) : Transaction Bool :=
  if update.status = .fault then transitionToFault vehicleId update.reason
  else setVehicleStatus vehicleId update.status

def transaction : Call → Transaction Reply
  | .postTelemetry event => do
    persistTelemetry event
    pure .accepted
  | .postVehicleStatus vehicleId update => do
    let applied ← statusTransaction vehicleId update
    pure (.applied applied)
  | .sweep now => do
    let vehicles ← detectCommsLoss now
    pure (.flagged vehicles)

inductive Response where
  | created
  | ok (applied : Bool)
  | notFound (detail : String)
  | swept (vehicles : Nat)
  | internalServerError
  deriving DecidableEq, Repr

/-- `post_vehicle_status` after its transaction: both a missing row under lock and an
unmatched update are a `LookupError`, answered 404. -/
def postVehicleStatus (vehicleId : String) (update : VehicleStatusUpdate) :
    Except PyError Bool → Response
  | .ok applied =>
    -- a fault transition that changed nothing is answered 200, an unmatched update is not
    if update.status ≠ .fault ∧ applied = false then .notFound ("unknown vehicle: " ++ vehicleId)
    else .ok applied
  | .error (.lookupError _) => .notFound ("unknown vehicle: " ++ vehicleId)
  | .error _ => .internalServerError

def respond : Call → Except PyError Reply → Response
  | .postVehicleStatus vehicleId update, .ok (.applied applied) =>
    postVehicleStatus vehicleId update (.ok applied)
  | .postVehicleStatus vehicleId update, .error e => postVehicleStatus vehicleId update (.error e)
  | .sweep _, .ok (.flagged vehicles) => .swept vehicles
  | _, .ok _ => .created
  | _, .error _ => .internalServerError

/-- One call on its own: the response, and the state it leaves. -/
def serve (db : Db) (call : Call) : Response × Db :=
  match postgres.run (transaction call) db with
  | .ok (reply, db') => (respond call (.ok reply), db')
  | .error e => (respond call (.error e), db)

def serveAll (db : Db) (calls : List Call) : Db :=
  calls.foldl (fun db call => (serve db call).2) db

theorem serve_postTelemetry (db : Db) (event : TelemetryEvent) :
    serve db (.postTelemetry event) =
      match postgres.run (persistTelemetry event) db with
      | .ok (_, db') => (.created, db')
      | .error _ => (.internalServerError, db) := by
  simp only [serve, transaction, Engine.run_bind]
  cases postgres.run (persistTelemetry event) db <;> rfl

namespace Service

abbrev Session := Foundations.Session Call Stmt Stmt.Ret Write Key PyError Reply
abbrev State := Foundations.State Call Db Stmt Stmt.Ret Write Key PyError Reply
abbrev Event := Foundations.Event Call Stmt Stmt.Ret Db PyError Reply

/-- The states of every interleaving of calls, where `env` may change the database too. -/
abbrev ReachableWith (env : (Key → Prop) → Db → Db → Prop) (db : Db) (s : State) : Prop :=
  Foundations.Reachable postgres transaction env db s

/-- Nothing but the calls writes. -/
def closed (_ : Key → Prop) (_ _ : Db) : Prop := False

abbrev Reachable (db : Db) (s : State) : Prop := ReachableWith closed db s

abbrev play (transactions : List Nat) (db : Db) (moves : List (Move Call)) : Option State :=
  State.performAll postgres transaction transactions (.start db) moves

theorem exists_reachable (env : (Key → Prop) → Db → Db → Prop) (transactions : List Nat) (db : Db)
    (moves : List (Move Call)) (p : State → Bool)
    (played : (play transactions db moves).map p = some true) :
    ∃ s, ReachableWith env db s ∧ p s = true :=
  State.exists_reachable played

/-- The telemetry events of a log in commit order. -/
def committedEvents (log : List Event) : List TelemetryEvent :=
  log.filterMap fun
    | .returned (.postTelemetry event) _ _ _ _ => some event
    | _ => none

end Service

end FleetTelemetry
