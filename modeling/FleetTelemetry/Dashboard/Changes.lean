import FleetTelemetry.Cdc.Decoding
import FleetTelemetry.Dashboard.Stores
import FleetTelemetry.Store.Persistence

/-!
# From committed writes to patches and snapshots

The same rows reach the dashboard twice: as the event of the write that changed them and
in the snapshot that reads them. Clock columns are not part of the schema modelled here.
-/

namespace FleetTelemetry

open Foundations
open Cdc (Numerals Datum Message Json rowOf item asFloat asInt tableEventTypes ok_bind
  buildPayload_currentState buildPayload_zoneCount buildPayload_anomaly)
open Dashboard

/-- How numbers and instants are written: in a detail, in a column of the stream, and in
the JSON of a snapshot. -/
structure Texts where
  details : NumberText
  float : Double → String
  int : Int → String
  timestamp : Int → String
  isoformat : Int → String

def optionalText (s : Option String) : Datum :=
  match s with
  | some s => .text s
  | none => .null

section Columns

variable (texts : Texts)

def currentStateColumns (v : String) (row : CurrentState) : List (String × Datum) :=
  [("vehicle_id", .text v), ("status", .text row.status.text),
    ("battery_pct", .text (texts.float row.batteryPct)),
    ("recorded_at", .text (texts.timestamp row.recordedAt)),
    ("speed_mps", .text (texts.float row.speedMps)),
    ("pos_x", optionalText (row.posX.map texts.float)),
    ("pos_y", optionalText (row.posY.map texts.float))]

def zoneCountColumns (z : String) (n : Int) : List (String × Datum) :=
  [("zone_id", .text z), ("entry_count", .text (texts.int n))]

def anomalyColumns (row : Anomaly) : List (String × Datum) :=
  [("vehicle_id", .text row.vehicleId), ("anomaly_type", .text row.anomalyType.text),
    ("detail", optionalText (row.detail.map (Detail.text texts.details))),
    ("detected_at", .text (texts.timestamp row.detectedAt))]

end Columns

namespace Write

/-- The table and the new row of a write to a watched table, as its columns are sent. -/
def row (texts : Texts) : Write → Option (String × List (String × Datum))
  | putCurrent v row => some ("vehicle_current_state", currentStateColumns texts v row)
  | putZone z n => some ("zone_counts", zoneCountColumns texts z n)
  | appendAnomaly row => some ("anomalies", anomalyColumns texts row)
  | _ => none

/-- The event published for a write. -/
def event (num : Numerals) (texts : Texts) (w : Write) : Option Message :=
  (w.row texts).bind fun row =>
    (Cdc.translate num row.1 (rowOf (row.2.map Prod.fst) (row.2.map Prod.snd))).toOption.join

end Write

def anomalyPayload (texts : Texts) (row : Anomaly) : AnomalyDetectedPayload :=
  ⟨row.vehicleId, row.anomalyType.text, row.detail.map (Detail.text texts.details),
    texts.timestamp row.detectedAt⟩

namespace Write

/-- The patch a write reaches the dashboard as. -/
def patch (texts : Texts) : Write → Option PatchEvent
  | putCurrent v row => some (.vehicleStateChanged ⟨v, row.status.text, row.batteryPct⟩)
  | putZone z n => some (.zoneCountChanged ⟨z, n⟩)
  | appendAnomaly row => some (.anomalyDetected (anomalyPayload texts row))
  | _ => none

/-- The numbers of the write read back as they were printed. -/
def Printed (num : Numerals) (texts : Texts) : Write → Prop
  | putCurrent _ row => num.float (texts.float row.batteryPct) = .ok row.batteryPct
  | putZone _ n => num.int (texts.int n) = .ok n
  | _ => True

end Write

namespace Dashboard

def stringField (payload : List (String × Json)) (key : String) : Option String :=
  match payload.lookup key with
  | some (.string s) => some s
  | _ => none

/-- A field that may be null. -/
def optionalField (payload : List (String × Json)) (key : String) : Option (Option String) :=
  match payload.lookup key with
  | some (.string s) => some (some s)
  | some .null => some none
  | _ => none

/-- The typed event of a message. The cast in `parsePatch` checks no field, so the stores
are modelled on the payloads that have the declared shape. -/
def parsePatch (message : Message) : Option PatchEvent :=
  if message.type = "vehicle_state_changed" then do
    let vehicleId ← stringField message.payload "vehicle_id"
    let status ← stringField message.payload "status"
    match message.payload.lookup "battery_pct" with
    | some (.float batteryPct) => some (.vehicleStateChanged ⟨vehicleId, status, batteryPct⟩)
    | _ => none
  else if message.type = "anomaly_detected" then do
    let vehicleId ← stringField message.payload "vehicle_id"
    let anomalyType ← stringField message.payload "anomaly_type"
    let detail ← optionalField message.payload "detail"
    let detectedAt ← stringField message.payload "detected_at"
    some (.anomalyDetected ⟨vehicleId, anomalyType, detail, detectedAt⟩)
  else if message.type = "zone_count_changed" then do
    let zoneId ← stringField message.payload "zone_id"
    match message.payload.lookup "entry_count" with
    | some (.integer n) => some (.zoneCountChanged ⟨zoneId, n⟩)
    | _ => none
  else none

section Events

variable {num : Numerals} {texts : Texts}

theorem item_columns {columns : List (String × Datum)} (distinct : (columns.map Prod.fst).Nodup)
    (name : String) {d : Datum} (found : columns.lookup name = some d) :
    item (rowOf (columns.map Prod.fst) (columns.map Prod.snd)) name = .ok d := by
  have long : (columns.map Prod.fst).length ≤ (columns.map Prod.snd).length := by simp
  have value := Cdc.get?_rowOf distinct long name
  have whole : (columns.map Prod.fst).zip (columns.map Prod.snd) = columns := by
    rw [List.zip_map', List.map_id']
  rw [whole, found] at value
  rw [item, value]

theorem distinct_columns {w : Write} {table : String} {columns : List (String × Datum)}
    (stored : w.row texts = some (table, columns)) : (columns.map Prod.fst).Nodup := by
  -- the columns are those of the table, written out once each
  cases w with
  | putCurrent v row =>
    cases stored
    change ["vehicle_id", "status", "battery_pct", "recorded_at", "speed_mps", "pos_x",
      "pos_y"].Nodup
    decide
  | putZone z n =>
    cases stored
    change ["zone_id", "entry_count"].Nodup
    decide
  | appendAnomaly row =>
    cases stored
    change ["vehicle_id", "anomaly_type", "detail", "detected_at"].Nodup
    decide
  | appendRaw | putVehicle | putMission | appendMaintenance => cases stored

theorem translate_currentState {values : OrdMap String Datum} {v status printed : String}
    {batteryPct : Double} (vehicleId : item values "vehicle_id" = .ok (.text v))
    (state : item values "status" = .ok (.text status))
    (battery : item values "battery_pct" = .ok (.text printed))
    (read : num.float printed = .ok batteryPct) :
    Cdc.translate num "vehicle_current_state" values = .ok (some ⟨Cdc.vehicleStateChanged,
      [("vehicle_id", .string v), ("status", .string status),
        ("battery_pct", .float batteryPct)]⟩) := by
  have parsed : asFloat num (.text printed) = .ok (.float batteryPct) := by
    rw [asFloat, read]
    rfl
  have built := buildPayload_currentState vehicleId state battery parsed
  have type : tableEventTypes.lookup "vehicle_current_state" =
      some Cdc.vehicleStateChanged := rfl
  simp only [Cdc.translate, type, built, ok_bind]
  rfl

theorem translate_zoneCount {values : OrdMap String Datum} {z printed : String} {n : Int}
    (zoneId : item values "zone_id" = .ok (.text z))
    (count : item values "entry_count" = .ok (.text printed)) (read : num.int printed = .ok n) :
    Cdc.translate num "zone_counts" values = .ok (some ⟨Cdc.zoneCountChanged,
      [("zone_id", .string z), ("entry_count", .integer n)]⟩) := by
  have parsed : asInt num (.text printed) = .ok (.int n) := by
    rw [asInt, read]
    rfl
  have built := buildPayload_zoneCount zoneId count parsed
  have type : tableEventTypes.lookup "zone_counts" = some Cdc.zoneCountChanged := rfl
  simp only [Cdc.translate, type, built, ok_bind]
  rfl

def detailJson : Option String → Json
  | some s => .string s
  | none => .null

variable (num) in
theorem translate_anomaly {values : OrdMap String Datum} {v kind detected : String}
    {detail : Option String} (vehicleId : item values "vehicle_id" = .ok (.text v))
    (anomalyType : item values "anomaly_type" = .ok (.text kind))
    (detailText : item values "detail" = .ok (optionalText detail))
    (detectedAt : item values "detected_at" = .ok (.text detected)) :
    Cdc.translate num "anomalies" values = .ok (some ⟨Cdc.anomalyDetected,
      [("vehicle_id", .string v), ("anomaly_type", .string kind), ("detail", detailJson detail),
        ("detected_at", .string detected)]⟩) := by
  have built := buildPayload_anomaly num vehicleId anomalyType detailText detectedAt
  have type : tableEventTypes.lookup "anomalies" = some Cdc.anomalyDetected := rfl
  simp only [Cdc.translate, type, built, ok_bind]
  cases detail <;> rfl

theorem event_putCurrent (v : String) (row : CurrentState)
    (printed : (Write.putCurrent v row).Printed num texts) :
    (Write.putCurrent v row).event num texts = some ⟨Cdc.vehicleStateChanged,
      [("vehicle_id", .string v), ("status", .string row.status.text),
        ("battery_pct", .float row.batteryPct)]⟩ := by
  have distinct : ((currentStateColumns texts v row).map Prod.fst).Nodup :=
    distinct_columns (w := .putCurrent v row) rfl
  have translated := translate_currentState (item_columns distinct "vehicle_id" rfl)
    (item_columns distinct "status" rfl) (item_columns distinct "battery_pct" rfl) printed
  simp only [Write.event, Write.row, Option.bind_some, translated]
  rfl

theorem event_putZone (z : String) (n : Int) (printed : (Write.putZone z n).Printed num texts) :
    (Write.putZone z n).event num texts = some ⟨Cdc.zoneCountChanged,
      [("zone_id", .string z), ("entry_count", .integer n)]⟩ := by
  have distinct : ((zoneCountColumns texts z n).map Prod.fst).Nodup :=
    distinct_columns (w := .putZone z n) rfl
  have translated := translate_zoneCount (item_columns distinct "zone_id" rfl)
    (item_columns distinct "entry_count" rfl) printed
  simp only [Write.event, Write.row, Option.bind_some, translated]
  rfl

theorem event_appendAnomaly (row : Anomaly) :
    (Write.appendAnomaly row).event num texts = some ⟨Cdc.anomalyDetected,
      [("vehicle_id", .string row.vehicleId), ("anomaly_type", .string row.anomalyType.text),
        ("detail", detailJson (row.detail.map (Detail.text texts.details))),
        ("detected_at", .string (texts.timestamp row.detectedAt))]⟩ := by
  have distinct : ((anomalyColumns texts row).map Prod.fst).Nodup :=
    distinct_columns (w := .appendAnomaly row) rfl
  have translated := translate_anomaly num (item_columns distinct "vehicle_id" rfl)
    (item_columns distinct "anomaly_type" rfl) (item_columns distinct "detail" rfl)
    (item_columns distinct "detected_at" rfl)
  simp only [Write.event, Write.row, Option.bind_some, translated]
  rfl

/-- The event `_build_payload` makes of a write is the patch of that write. -/
theorem parsePatch_event {w : Write} (printed : w.Printed num texts) :
    (w.event num texts).bind parsePatch = w.patch texts := by
  -- by the table the write goes to; the tables that are not watched have neither
  cases w with
  | putCurrent v row =>
    rw [event_putCurrent v row printed]
    rfl
  | putZone z n =>
    rw [event_putZone z n printed]
    rfl
  | appendAnomaly row =>
    rw [event_appendAnomaly row, Option.bind_some, Write.patch, anomalyPayload]
    cases row.detail <;> rfl
  | appendRaw | putVehicle | putMission | appendMaintenance => rfl

end Events

end Dashboard

end FleetTelemetry
