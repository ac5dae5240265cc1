import FleetTelemetry.Dashboard.Snapshots
import FleetTelemetry.Foundations.Timestamps

/-!
# One row by snapshot and by patch

A row of a watched table as the REST snapshot describes it, encoded from what psycopg
loads, and as `_build_payload` describes it, from the texts of its columns.
-/

namespace FleetTelemetry.Dashboard

open Foundations
open Cdc (Numerals Datum Message Json)
open Foundations.Timestamps (hasDatetime isoformat timestamptzOut timestamptzOut_ne_isoformat)

/-- What the response holds for a float that JSON has no number for: a null, or the
response fails. -/
inductive NonFinite where
  | null
  | refused
  deriving DecidableEq, Repr

/-- What the server, its two sessions and the libraries bring. -/
structure Session where
  numerals : Numerals
  details : NumberText
  float : Double → String
  int : Int → String
  replicationZone : Int → Int
  poolZone : Int → Int
  nonFinite : NonFinite

def Session.texts (session : Session) : Texts where
  details := session.details
  float := session.float
  int := session.int
  timestamp := timestamptzOut session.replicationZone
  isoformat := isoformat session.poolZone

/-- A value of a fetched row. -/
inductive Loaded where
  | none
  | str (s : String)
  | float (d : Double)
  | int (n : Int)
  | datetime (instant : Int)
  deriving DecidableEq, Repr

def Loaded.encode (session : Session) : Loaded → Option Json
  | none => some .null
  | str s => some (.string s)
  | float (.finite q) => some (.float (.finite q))
  | float _ =>
    match session.nonFinite with
    | .null => some .null
    | .refused => Option.none
  | int n => some (.integer n)
  -- psycopg raises for an instant that no `datetime` of its zone holds
  | datetime instant =>
    if hasDatetime session.poolZone instant then some (.string (isoformat session.poolZone instant))
    else Option.none

def encodeAll (session : Session) (fields : List (String × Loaded)) :
    Option (List (String × Json)) :=
  fields.mapM fun field => (field.2.encode session).map fun value => (field.1, value)

/-- A committed row of a watched table. -/
inductive StoredRow where
  | vehicleCurrentState (vehicleId : String) (row : CurrentState)
  | zoneCounts (zoneId : String) (entryCount : Int)
  | anomalies (row : Anomaly)
  deriving DecidableEq, Repr

namespace StoredRow

/-- The write that committed it. -/
def write : StoredRow → Write
  | vehicleCurrentState vehicleId row => .putCurrent vehicleId row
  | zoneCounts zoneId entryCount => .putZone zoneId entryCount
  | anomalies row => .appendAnomaly row

/-- The dict of the row that `current_vehicle_states` or `latest_anomaly_per_vehicle` returns,
and the item of `zone_entry_counts`, its key and value under their columns' names. -/
def fields (session : Session) : StoredRow → List (String × Loaded)
  | vehicleCurrentState vehicleId row => [("vehicle_id", .str vehicleId),
    ("status", .str row.status.text), ("battery_pct", .float row.batteryPct)]
  | zoneCounts zoneId entryCount => [("zone_id", .str zoneId), ("entry_count", .int entryCount)]
  | anomalies row => [("vehicle_id", .str row.vehicleId),
    ("anomaly_type", .str row.anomalyType.text),
    ("detail", (row.detail.map (Detail.text session.details)).elim .none .str),
    ("detected_at", .datetime row.detectedAt)]

/-- The JSON value of the row in the response. -/
def snapshot (session : Session) (row : StoredRow) : Option (List (String × Json)) :=
  encodeAll session (row.fields session)

def message (session : Session) (row : StoredRow) : Option Message :=
  row.write.event session.numerals session.texts

/-- The stores seeded with the value of the row alone. -/
def seed (value : List (String × Json)) : StoredRow → Option App
  | vehicleCurrentState .. => do
    let vehicleId ← stringField value "vehicle_id"
    let status ← stringField value "status"
    match value.lookup "battery_pct" with
    | some (.float batteryPct) =>
      some { App.initial with vehicles := seedVehicles [⟨vehicleId, status, batteryPct⟩] }
    | _ => none
  | zoneCounts .. => do
    let zoneId ← stringField value "zone_id"
    match value.lookup "entry_count" with
    | some (.integer n) => some { App.initial with zones := Dashboard.seedZones [(zoneId, n)] }
    | _ => none
  | anomalies _ => do
    let vehicleId ← stringField value "vehicle_id"
    let anomalyType ← stringField value "anomaly_type"
    let detail ← optionalField value "detail"
    let detectedAt ← stringField value "detected_at"
    some { App.initial with
      anomalies := seedAnomalies [⟨vehicleId, anomalyType, detail, detectedAt⟩] }

end StoredRow

def AgreeWhereShared (value payload : List (String × Json)) : Prop :=
  ∀ name a b, value.lookup name = some a → payload.lookup name = some b → a = b

/-- The two values of the row agree in every field they share, and the patch puts in the store
what the snapshot seeded. -/
def DescribedAlike (session : Session) (row : StoredRow) : Prop :=
  ∃ value message, row.snapshot session = some value ∧ row.message session = some message ∧
    AgreeWhereShared value message.payload ∧
    ∃ app event, row.seed value = some app ∧ parsePatch message = some event ∧
      app.onEvent event = app

/-- The row has nothing but texts, counts and finite numbers in its shared fields. -/
def StoredRow.Plain : StoredRow → Prop
  | vehicleCurrentState _ row => ∃ q, row.batteryPct = .finite q
  | zoneCounts .. => True
  | anomalies _ => False

section Rows

variable {session : Session}

theorem agreeWhereShared_self (value : List (String × Json)) : AgreeWhereShared value value := by
  intro name a b found found'
  rw [found] at found'
  exact Option.some.inj found'

theorem patchKnown_same {V : Type} {current : OrdMap String V} {key : String} {value : V}
    (found : current.get? key = some value) : patchKnown current key value = current := by
  unfold patchKnown
  split
  · exact OrdMap.set_same found
  · rfl

/-- A field of the response is the field of the fetched row, encoded. -/
theorem lookup_encodeAll {fields : List (String × Loaded)} {value : List (String × Json)}
    (encoded : encodeAll session fields = some value) (name : String) {v : Loaded}
    (field : fields.lookup name = some v) :
    ∃ j, v.encode session = some j ∧ value.lookup name = some j := by
  -- a field behind others is found where the encoding has got to it
  induction fields generalizing value with
  | nil => cases field
  | cons head rest ih =>
    rw [encodeAll, List.mapM_cons] at encoded
    obtain ⟨first, encodedHead, tail⟩ := Option.bind_eq_some_iff.mp encoded
    obtain ⟨others, encodedRest, both⟩ := Option.bind_eq_some_iff.mp tail
    obtain ⟨j, encodedValue, rfl⟩ := Option.map_eq_some_iff.mp encodedHead
    obtain rfl : (head.1, j) :: others = value := Option.some.inj both
    rw [List.lookup_cons] at field ⊢
    split at field
    next here =>
      rw [Option.some.inj field] at encodedValue
      exact ⟨j, encodedValue, rfl⟩
    next elsewhere => exact ih encodedRest field

theorem described_currentState {vehicleId : String} {row : CurrentState} {q : ℚ}
    (finite : row.batteryPct = .finite q)
    (printed : (Write.putCurrent vehicleId row).Printed session.numerals session.texts) :
    DescribedAlike session (.vehicleCurrentState vehicleId row) := by
  have sent := event_putCurrent vehicleId row printed
  have value : StoredRow.snapshot session (.vehicleCurrentState vehicleId row) =
      some [("vehicle_id", .string vehicleId), ("status", .string row.status.text),
        ("battery_pct", .float row.batteryPct)] := by
    rw [StoredRow.snapshot, StoredRow.fields, finite]
    rfl
  refine ⟨_, _, value, sent, agreeWhereShared_self _,
    { App.initial with vehicles := seedVehicles [vehicleSnapshotRow vehicleId row] },
    .vehicleStateChanged ⟨vehicleId, row.status.text, row.batteryPct⟩, rfl, rfl, ?_⟩
  -- the patch says what the snapshot has said, so the store is given back
  have seeded : (seedVehicles [vehicleSnapshotRow vehicleId row]).get? vehicleId =
      some (Vehicle.ofRow vehicleId row) := by
    rw [seedVehicles, List.foldl_cons, List.foldl_nil]
    exact OrdMap.get?_set_self ..
  have kept := patchKnown_same seeded
  simp only [App.onEvent, applyVehiclePatch]
  rw [← Vehicle.ofRow, kept]

theorem described_zoneCount (zoneId : String) (entryCount : Int)
    (printed : (Write.putZone zoneId entryCount).Printed session.numerals session.texts) :
    DescribedAlike session (.zoneCounts zoneId entryCount) := by
  have sent := event_putZone zoneId entryCount printed
  refine ⟨_, _, rfl, sent, agreeWhereShared_self _,
    { App.initial with zones := Dashboard.seedZones [(zoneId, entryCount)] },
    .zoneCountChanged ⟨zoneId, entryCount⟩, rfl, rfl, ?_⟩
  have seeded : (Dashboard.seedZones [(zoneId, entryCount)]).get? zoneId = some entryCount := by
    rw [Dashboard.seedZones, List.foldl_cons, List.foldl_nil]
    exact OrdMap.get?_set_self ..
  have kept := patchKnown_same seeded
  simp only [App.onEvent, applyZonePatch]
  rw [kept]

theorem finite_of_encode {d : Double}
    (encoded : (Loaded.float d).encode session = some (.float d)) : ∃ q, d = .finite q := by
  cases d with
  | finite q => exact ⟨q, rfl⟩
  | posInf | negInf | nan =>
    cases mode : session.nonFinite <;> simp [Loaded.encode, mode] at encoded

/-- The patch carries the number that the response has no token for. -/
theorem finite_of_described {vehicleId : String} {row : CurrentState}
    (printed : (Write.putCurrent vehicleId row).Printed session.numerals session.texts)
    (described : DescribedAlike session (.vehicleCurrentState vehicleId row)) :
    ∃ q, row.batteryPct = .finite q := by
  obtain ⟨value, message, snapshotted, sent, agree, -⟩ := described
  obtain ⟨j, encoded, found⟩ := lookup_encodeAll snapshotted "battery_pct" rfl
  rw [StoredRow.message, StoredRow.write, event_putCurrent vehicleId row printed] at sent
  cases sent
  have same : j = .float row.batteryPct := agree "battery_pct" _ _ found rfl
  subst same
  exact finite_of_encode encoded

theorem message_anomaly (row : Anomaly) :
    (StoredRow.anomalies row).message session = some ⟨Cdc.anomalyDetected,
      [("vehicle_id", .string row.vehicleId), ("anomaly_type", .string row.anomalyType.text),
        ("detail", detailJson (row.detail.map (Detail.text session.details))),
        ("detected_at", .string (timestamptzOut session.replicationZone row.detectedAt))]⟩ :=
  event_appendAnomaly row

/-- The two texts of an anomaly's instant are never the same. -/
theorem not_described_anomaly (row : Anomaly) : ¬DescribedAlike session (.anomalies row) := by
  rintro ⟨value, message, snapshotted, sent, agree, -⟩
  obtain ⟨j, encoded, found⟩ := lookup_encodeAll snapshotted "detected_at" rfl
  rw [message_anomaly] at sent
  cases sent
  have same : j = .string (timestamptzOut session.replicationZone row.detectedAt) :=
    agree "detected_at" _ _ found rfl
  rw [Loaded.encode] at encoded
  split at encoded
  · rw [same] at encoded
    have texts := Json.string.inj (Option.some.inj encoded)
    exact timestamptzOut_ne_isoformat _ _ _ _ texts.symm
  · cases encoded

/-- The snapshot and the patch describe a row alike exactly when it has no timestamp to
describe and its battery level is finite. -/
theorem describedAlike_iff (session : Session) (row : StoredRow)
    (printed : row.write.Printed session.numerals session.texts) :
    DescribedAlike session row ↔ row.Plain := by
  cases row with
  | vehicleCurrentState vehicleId row =>
    constructor
    · exact finite_of_described printed
    · rintro ⟨q, finite⟩
      exact described_currentState finite printed
  | zoneCounts zoneId entryCount =>
    constructor
    · intro _
      trivial
    · intro _
      exact described_zoneCount zoneId entryCount printed
  -- the two descriptions of an anomaly never agree, whatever the row
  | anomalies row =>
    constructor
    · exact not_described_anomaly row
    · exact False.elim

def utcSession : Session where
  numerals :=
    { float := fun text => if text = "95" then .ok (.finite 95) else .error .valueError
      int := fun text => if text = "3" then .ok 3 else .error .valueError }
  details := ⟨fun d => if d = .finite 10 then "10.0" else "0.0", fun _ => "0.0", fun _ => "0.000"⟩
  float d := if d = .finite 95 then "95" else "0"
  int n := if n = 3 then "3" else "0"
  replicationZone _ := 0
  poolZone _ := 0
  nonFinite := .null

def chargedRow : CurrentState := ⟨.moving, .finite 95, .finite 1, none, none, 1781654400000000⟩

theorem describedAlike_iff_charged :
    DescribedAlike utcSession (.vehicleCurrentState "agv-1" chargedRow) := by
  have printed : (StoredRow.vehicleCurrentState "agv-1" chargedRow).write.Printed
      utcSession.numerals utcSession.texts := rfl
  exact (describedAlike_iff utcSession _ printed).mpr ⟨95, rfl⟩

def drainedAnomaly : Anomaly :=
  ⟨"agv-1", .lowBattery, some (.batteryPct (.finite 10)), 1781654400000000⟩

theorem drainedAnomaly_twoTexts : ¬∀ (session : Session) (row : StoredRow),
    row.write.Printed session.numerals session.texts → DescribedAlike session row := by
  intro alike
  have printed : (StoredRow.anomalies drainedAnomaly).write.Printed
      utcSession.numerals utcSession.texts := trivial
  exact not_described_anomaly drainedAnomaly (alike utcSession _ printed)

example : (StoredRow.anomalies drainedAnomaly).snapshot utcSession =
      some [("vehicle_id", .string "agv-1"), ("anomaly_type", .string "low_battery"),
        ("detail", .string "battery_pct=10.0"),
        ("detected_at", .string "2026-06-17T00:00:00+00:00")] ∧
    (StoredRow.anomalies drainedAnomaly).message utcSession = some ⟨"anomaly_detected",
      [("vehicle_id", .string "agv-1"), ("anomaly_type", .string "low_battery"),
        ("detail", .string "battery_pct=10.0"),
        ("detected_at", .string "2026-06-17 00:00:00+00")]⟩ := by
  decide +kernel

end Rows

end FleetTelemetry.Dashboard
