import FleetTelemetry.Dashboard.Snapshots
import Mathlib.Logic.Relation

/-!
# Loading the dashboard

The effect of `App` next to the database: the subscription is open, the three snapshots
are read at some instants and seed their stores at later ones, and the patches of the
writes committed since arrive in order. A resolved fetch remembers how many writes had
been committed when it was read and delivered when it resolved.
-/

namespace FleetTelemetry.Dashboard

open Foundations

inductive Fetch (A : Type) where
  | pending
  | read (snapshot : A) (seen : Nat)
  | resolved (snapshot : A) (seen resumed : Nat)

structure Page where
  committed : List Write
  delivered : Nat
  vehicles : Fetch (List VehicleSnapshotRow)
  anomalies : Fetch (List Anomaly)
  zones : Fetch ZoneCountsSnapshot
  app : App

inductive Action where
  | commit (writes : List Write)
  | readVehicles
  | readAnomalies (rows : List Anomaly)
  | readZones
  | resolveVehicles
  | resolveAnomalies
  | resolveZones
  | deliver

namespace Page

def mounted : Page := ⟨[], 0, .pending, .pending, .pending, .initial⟩

/-- One step of the database, the network or the page. The snapshots are read from the
database as it is, and each promise resolves once. -/
inductive Step (texts : Texts) (collate : String → String → Bool) (db : Db) :
    Page → Action → Page → Prop
  | commit (s : Page) (writes : List Write) :
      Step texts collate db s (.commit writes) { s with committed := s.committed ++ writes }
  | readVehicles (s : Page) (pending : s.vehicles = .pending) :
      Step texts collate db s .readVehicles { s with
        vehicles :=
          .read (currentVehicleStates collate (db.after s.committed)) s.committed.length }
  | readAnomalies (s : Page) (rows : List Anomaly) (pending : s.anomalies = .pending)
      (answer : LatestAnomalies (db.after s.committed) rows) :
      Step texts collate db s (.readAnomalies rows) { s with
        anomalies := .read rows s.committed.length }
  | readZones (s : Page) (pending : s.zones = .pending) :
      Step texts collate db s .readZones { s with
        zones := .read (zoneEntryCounts (db.after s.committed)).entries s.committed.length }
  | resolveVehicles (s : Page) (snapshot : List VehicleSnapshotRow) (seen : Nat)
      (answered : s.vehicles = .read snapshot seen) :
      Step texts collate db s .resolveVehicles { s with
        vehicles := .resolved snapshot seen s.delivered
        app := { s.app with vehicles := seedVehicles snapshot } }
  | resolveAnomalies (s : Page) (rows : List Anomaly) (seen : Nat)
      (answered : s.anomalies = .read rows seen) :
      Step texts collate db s .resolveAnomalies { s with
        anomalies := .resolved rows seen s.delivered
        app := { s.app with anomalies := seedAnomalies (rows.map (anomalySnapshotRow texts)) } }
  | resolveZones (s : Page) (snapshot : ZoneCountsSnapshot) (seen : Nat)
      (answered : s.zones = .read snapshot seen) :
      Step texts collate db s .resolveZones { s with
        zones := .resolved snapshot seen s.delivered
        app := { s.app with zones := seedZones snapshot } }
  | deliver (s : Page) (w : Write) (next : s.committed[s.delivered]? = some w) :
      Step texts collate db s .deliver { s with
        delivered := s.delivered + 1
        app := s.app.deliver texts w }

/-- The pages an action sequence can lead to. -/
def Reachable (texts : Texts) (collate : String → String → Bool) (db : Db) (s : Page) : Prop :=
  Relation.ReflTransGen (fun s s' => ∃ action, Step texts collate db s action s') mounted s

/-- Every snapshot has resolved and every patch is delivered. -/
def Loaded (s : Page) : Prop :=
  (∃ snapshot seen resumed, s.vehicles = .resolved snapshot seen resumed) ∧
  (∃ rows seen resumed, s.anomalies = .resolved rows seen resumed) ∧
  (∃ snapshot seen resumed, s.zones = .resolved snapshot seen resumed) ∧
  s.delivered = s.committed.length

/-- `b` is the anomaly `a` of the `i`th write, or one of the same vehicle committed or
detected later. -/
def Supersedes (s : Page) (i : Nat) (a b : Anomaly) : Prop :=
  b.vehicleId = a.vehicleId ∧
    (b = a ∨ a.detectedAt < b.detectedAt ∨
      ∃ j, i < j ∧ s.committed[j]? = some (.appendAnomaly b))

/-- The store shows the anomaly, as its patch or as its snapshot row. -/
def Shows (texts : Texts) (app : App) (a : Anomaly) : Prop :=
  app.anomalies.get? a.vehicleId = some (anomalyPayload texts a) ∨
    app.anomalies.get? a.vehicleId = some (anomalySnapshotRow texts a)

/-- Each delivered anomaly is shown, or a later one of its vehicle. -/
def AnomaliesKept (texts : Texts) (s : Page) : Prop :=
  ∀ i a, i < s.delivered → s.committed[i]? = some (.appendAnomaly a) →
    ∃ b, s.Supersedes i a b ∧ Shows texts s.app b

/-- The stores show the last committed value of what their snapshots loaded. -/
structure NothingLost (texts : Texts) (db : Db) (s : Page) : Prop where
  vehicles : ∀ snapshot seen resumed, s.vehicles = .resolved snapshot seen resumed →
    ∀ row ∈ snapshot, ∃ state,
      (db.after s.committed).vehicleCurrentState.get? row.vehicleId = some state ∧
      s.app.vehicles.get? row.vehicleId = some (Vehicle.ofRow row.vehicleId state)
  zones : ∀ snapshot seen resumed, s.zones = .resolved snapshot seen resumed →
    ∀ entry ∈ snapshot, ∃ count,
      (db.after s.committed).zoneCounts.get? entry.1 = some count ∧
      s.app.zones.get? entry.1 = some count
  anomalies : AnomaliesKept texts s

/-- The writes whose patches were delivered although a snapshot does not have them. -/
def overtaking (s : Page) (seen : Nat) : List Write := (s.committed.take s.delivered).drop seen

/-- A snapshot resolves only while it is not older than a patch already delivered: no write
it misses was to a row it seeds, and each anomaly delivered is in it, or a later one. -/
def Timely (s : Page) : Action → Prop
  | .resolveVehicles => ∀ snapshot seen, s.vehicles = .read snapshot seen →
    ∀ w ∈ s.overtaking seen, ∀ row ∈ snapshot, w.current row.vehicleId = none
  | .resolveZones => ∀ snapshot seen, s.zones = .read snapshot seen →
    ∀ w ∈ s.overtaking seen, ∀ entry ∈ snapshot, w.zone entry.1 = none
  | .resolveAnomalies => ∀ rows seen, s.anomalies = .read rows seen →
    ∀ i a, i < s.delivered → s.committed[i]? = some (.appendAnomaly a) →
      ∃ row ∈ rows, s.Supersedes i a row
  | _ => True

/-- The pages reached by steps that are all timely. -/
def TimelyReachable (texts : Texts) (collate : String → String → Bool) (db : Db) (s : Page) :
    Prop :=
  Relation.ReflTransGen (fun s s' => ∃ action, Step texts collate db s action s' ∧ s.Timely action)
    mounted s

end Page

end FleetTelemetry.Dashboard
