import FleetTelemetry.Dashboard.Changes
import FleetTelemetry.Frontend.Envelope

/-!
# Payload fidelity

The text a client receives for a row is the one Python writes for the bare envelope, with
or without a trace carrier. Python writes the special floats as names outside the JSON
grammar, but a validated battery level is finite, so the browser reads every row.
-/

namespace FleetTelemetry.Frontend

open Foundations
open Cdc (Numerals Datum Message)

namespace Floats

/-- The written form of a float is a number with a fraction or an exponent, and reads back. -/
structure Exact (floats : Floats) (q : ℚ) : Prop where
  number : Json.isNumber (floats.repr q) = true
  fractional : Json.isFractional (floats.repr q) = true
  nearest : floats.nearest (floats.repr q) = .finite q

end Floats

namespace PyNumber

def Exact (floats : Floats) : PyNumber → Prop
  | float (.finite q) => floats.Exact q
  | _ => True

end PyNumber

section Python

variable {floats : Floats}

theorem isLiteral_constant :
    ∀ name ∈ [nanText, infinityText, '-' :: infinityText], Json.IsLiteral name := by
  intro name member
  simp only [List.mem_cons, List.not_mem_nil, or_false] at member
  rcases member with rfl | rfl | rfl
  all_goals
    constructor
    · decide
    · exact List.all_eq_true.mp rfl
    · decide

theorem isLiteral_text {n : PyNumber} (exact : n.Exact floats) :
    Json.IsLiteral (n.text floats) := by
  cases n with
  | int n => exact Json.isLiteral_of_isNumber (Json.isNumber_intText n)
  | float d =>
    cases d with
    | finite q => exact Json.isLiteral_of_isNumber exact.number
    | posInf => exact isLiteral_constant infinityText (by simp)
    | negInf => exact isLiteral_constant ('-' :: infinityText) (by simp)
    | nan => exact isLiteral_constant nanText (by simp)

theorem loadsNumber_of_isNumber {literal : List Char} (is : Json.isNumber literal = true) :
    loadsNumber floats literal =
      if Json.isFractional literal then some (.float (floats.nearest literal))
      else some (.int (Json.readInt literal)) := by
  have apart (name : List Char) (other : Json.isNumber name = false) : literal ≠ name := by
    rintro rfl
    rw [is] at other
    cases other
  rw [loadsNumber, if_neg (apart _ (by decide)), if_neg (apart _ (by decide)),
    if_neg (apart _ (by decide)), if_pos is]

theorem loadsNumber_text {n : PyNumber} (exact : n.Exact floats) :
    loadsNumber floats (n.text floats) = some n := by
  cases n with
  | int n =>
    rw [PyNumber.text, loadsNumber_of_isNumber (Json.isNumber_intText n),
      Json.isFractional_intText, Json.readInt_intText]
    rfl
  | float d =>
    cases d with
    | finite q =>
      have exact : floats.Exact q := exact
      rw [PyNumber.text, loadsNumber_of_isNumber exact.number, exact.fractional, exact.nearest]
      rfl
    -- the three words of Python for them, which its own reader takes
    | posInf => rfl
    | negInf => rfl
    | nan => rfl

theorem read_dumps {M : Type} (number : List Char → Option M) {v : Json PyNumber}
    (wf : v.WellFormed (PyNumber.Exact floats)) :
    Json.read number (dumps floats v) = v.traverse (number ∘ PyNumber.text floats) :=
  Json.read_write number (wf.mono fun _ => isLiteral_text)

/-- `json.loads` inverts `json.dumps`. -/
theorem loads_dumps {v : Json PyNumber} (wf : v.WellFormed (PyNumber.Exact floats)) :
    loads floats (dumps floats v) = some v := by
  rw [loads, read_dumps _ wf]
  exact Json.traverse_eq_self wf fun _ => loadsNumber_text

end Python

section Hop

variable {floats : Floats}

/-- The numbers of the message are written exactly, and its payload repeats no key. -/
structure Writable (floats : Floats) (message : Message) : Prop where
  distinct : (message.payload.map Prod.fst).Nodup
  exact : ∀ field ∈ message.payload, ∀ n, fieldValue field.2 = .number n → n.Exact floats

theorem keys_envelope (message : Message) :
    (envelope message).map Prod.fst = ["type", "payload"].map Json.ofString := rfl

theorem nodup_keys_envelope (message : Message) : ((envelope message).map Prod.fst).Nodup := by
  have names : ["type", "payload"].Nodup := by decide
  rw [keys_envelope]
  exact names.map Json.ofString_injective

theorem traceContextKey_fresh (message : Message) :
    traceContextKey ∉ (envelope message).map Prod.fst := by
  rw [keys_envelope, traceContextKey, List.mem_map_of_injective Json.ofString_injective]
  decide

theorem wellFormed_fieldValue {field : Cdc.Json}
    (exact : ∀ n, fieldValue field = .number n → n.Exact floats) :
    (fieldValue field).WellFormed (PyNumber.Exact floats) := by
  cases field with
  | null => exact .null
  | string s => exact .string _
  | float d => exact .number (exact _ rfl)
  | integer n => exact .number (exact _ rfl)

theorem wellFormed_envelope {message : Message} (writable : Writable floats message) :
    ∀ member ∈ envelope message, member.2.WellFormed (PyNumber.Exact floats) := by
  have payload : ∀ member ∈ message.payload.map fun field =>
      (Json.ofString field.1, fieldValue field.2), member.2.WellFormed (PyNumber.Exact floats) := by
    rw [List.forall_mem_map]
    intro field member
    exact wellFormed_fieldValue (writable.exact field member)
  have distinct := writable.distinct.map Json.ofString_injective
  rw [List.map_map] at distinct
  simp only [envelope, List.forall_mem_cons]
  refine ⟨.string _, .object ?_ payload, by simp⟩
  rw [List.map_map]
  exact distinct

theorem wellFormed_carrierValue (carrier : OrdMap String String) :
    (carrierValue carrier).WellFormed (PyNumber.Exact floats) := by
  have distinct := carrier.nodup.map Json.ofString_injective
  constructor
  · rw [List.map_map] at distinct ⊢
    exact distinct
  · rw [List.forall_mem_map]
    exact fun entry _ => .string _

theorem injectTraceContext_fresh {carrier : OrdMap String String}
    (attached : carrier.entries ≠ []) (message : Message) :
    injectTraceContext carrier (envelope message) =
      envelope message ++ [(traceContextKey, carrierValue carrier)] := by
  rw [injectTraceContext, if_neg attached, Json.insert_fresh (traceContextKey_fresh message)]

theorem wellFormed_injectTraceContext (carrier : OrdMap String String) {message : Message}
    (writable : Writable floats message) :
    (Json.object (injectTraceContext carrier (envelope message))).WellFormed
      (PyNumber.Exact floats) := by
  have fields := wellFormed_envelope writable
  have distinct := nodup_keys_envelope message
  by_cases attached : carrier.entries = []
  · rw [injectTraceContext, if_pos attached]
    exact .object distinct fields
  · rw [injectTraceContext_fresh attached]
    constructor
    · rw [List.map_append, List.nodup_append_comm]
      exact distinct.cons (traceContextKey_fresh message)
    · rw [List.forall_mem_append, List.forall_mem_singleton]
      exact ⟨fields, wellFormed_carrierValue carrier⟩

theorem stripTraceContext_envelope (message : Message) :
    stripTraceContext (envelope message) = envelope message := by
  rw [stripTraceContext, List.filter_eq_self]
  intro member present
  have other : member.1 ≠ traceContextKey := fun same =>
    traceContextKey_fresh message (same ▸ List.mem_map_of_mem present)
  simpa using other

/-- The carrier leaves no trace: what is broadcast is the text of the bare envelope. -/
theorem fanOut_publishedText (carrier : OrdMap String String) {message : Message}
    (writable : Writable floats message) :
    fanOut floats (publishedText floats carrier message) =
      dumps floats (.object (envelope message)) := by
  have read := loads_dumps (wellFormed_injectTraceContext carrier writable)
  rw [fanOut, publishedText, read]
  -- without a carrier the text is passed on, with one the key is stripped again
  by_cases attached : carrier.entries = []
  · simp only [injectTraceContext, if_pos attached, if_neg (traceContextKey_fresh message)]
  · have present : traceContextKey ∈ (envelope message ++
        [(traceContextKey, carrierValue carrier)]).map Prod.fst := by simp
    simp only [injectTraceContext_fresh attached, if_pos present]
    have dropped : stripTraceContext [(traceContextKey, carrierValue carrier)] = [] := by
      simp [stripTraceContext]
    have kept := stripTraceContext_envelope message
    rw [stripTraceContext] at kept dropped ⊢
    rw [List.filter_append, kept, dropped, List.append_nil]

end Hop

/-- A row of a watched table, by the columns its event carries. -/
inductive Row where
  | vehicleCurrentState (vehicleId status : String) (batteryPct : Double)
  | anomalies (vehicleId anomalyType : String) (detail : Option String) (detectedAt : String)
  | zoneCounts (zoneId : String) (entryCount : Int)
  deriving DecidableEq, Repr

namespace Row

def table : Row → String
  | vehicleCurrentState .. => "vehicle_current_state"
  | anomalies .. => "anomalies"
  | zoneCounts .. => "zone_counts"

def type : Row → String
  | vehicleCurrentState .. => "vehicle_state_changed"
  | anomalies .. => "anomaly_detected"
  | zoneCounts .. => "zone_count_changed"

def text (name s : String) : List UInt16 × Json Double :=
  (Json.ofString name, .string (Json.ofString s))

def number (name : String) (d : Double) : List UInt16 × Json Double :=
  (Json.ofString name, .number d)

def optional (name : String) : Option String → List UInt16 × Json Double
  | some s => text name s
  | none => (Json.ofString name, .null)

/-- The columns of the row as the browser is to see them. -/
def payload : Row → Json Double
  | vehicleCurrentState vehicleId status batteryPct => .object
    [text "vehicle_id" vehicleId, text "status" status, number "battery_pct" batteryPct]
  | anomalies vehicleId anomalyType detail detectedAt => .object
    [text "vehicle_id" vehicleId, text "anomaly_type" anomalyType, optional "detail" detail,
      text "detected_at" detectedAt]
  | zoneCounts zoneId entryCount => .object
    [text "zone_id" zoneId, number "entry_count" (.finite entryCount)]

/-- A battery level within the declared bounds of the event, a count of the column's type. -/
def Committable : Row → Prop
  | vehicleCurrentState _ _ batteryPct => BatteryBounds batteryPct
  | anomalies .. => True
  | zoneCounts _ entryCount => -maxInteger - 1 ≤ entryCount ∧ entryCount ≤ maxInteger

/-- The decoded columns hold the row, its number printed so that it parses back. -/
def Sent (num : Numerals) (values : OrdMap String Datum) : Row → Prop
  | vehicleCurrentState vehicleId status batteryPct =>
    Cdc.item values "vehicle_id" = .ok (.text vehicleId) ∧
      Cdc.item values "status" = .ok (.text status) ∧
      ∃ printed, Cdc.item values "battery_pct" = .ok (.text printed) ∧
        num.float printed = .ok batteryPct
  | anomalies vehicleId anomalyType detail detectedAt =>
    Cdc.item values "vehicle_id" = .ok (.text vehicleId) ∧
      Cdc.item values "anomaly_type" = .ok (.text anomalyType) ∧
      Cdc.item values "detail" = .ok (optionalText detail) ∧
      Cdc.item values "detected_at" = .ok (.text detectedAt)
  | zoneCounts zoneId entryCount =>
    Cdc.item values "zone_id" = .ok (.text zoneId) ∧
      ∃ printed, Cdc.item values "entry_count" = .ok (.text printed) ∧
        num.int printed = .ok entryCount

/-- A finite battery level is printed by Python so that it reads back. -/
def Exact (floats : Floats) : Row → Prop
  | vehicleCurrentState _ _ batteryPct => (PyNumber.float batteryPct).Exact floats
  | _ => True

open Cdc in
/-- The message `_emit` builds of the row. -/
def message : Row → Message
  | vehicleCurrentState vehicleId status batteryPct => ⟨vehicleStateChanged,
    [("vehicle_id", .string vehicleId), ("status", .string status),
      ("battery_pct", .float batteryPct)]⟩
  | anomalies vehicleId anomalyType detail detectedAt => ⟨anomalyDetected,
    [("vehicle_id", .string vehicleId), ("anomaly_type", .string anomalyType),
      ("detail", Dashboard.detailJson detail), ("detected_at", .string detectedAt)]⟩
  | zoneCounts zoneId entryCount => ⟨zoneCountChanged,
    [("zone_id", .string zoneId), ("entry_count", .integer entryCount)]⟩

/-- The object the browser is to parse. -/
def received (row : Row) : Json Double :=
  .object [(Json.ofString "type", .string (Json.ofString row.type)),
    (Json.ofString "payload", row.payload)]

end Row

section Rows

variable {num : Numerals} {floats : Floats}

theorem translate_sent {row : Row} {values : OrdMap String Datum} (sent : row.Sent num values) :
    Cdc.translate num row.table values = .ok (some row.message) := by
  cases row with
  | vehicleCurrentState vehicleId status batteryPct =>
    obtain ⟨vehicle, state, printed, battery, parsed⟩ := sent
    exact Dashboard.translate_currentState vehicle state battery parsed
  | anomalies vehicleId anomalyType detail detectedAt =>
    obtain ⟨vehicle, anomaly, optional, detected⟩ := sent
    exact Dashboard.translate_anomaly num vehicle anomaly optional detected
  | zoneCounts zoneId entryCount =>
    obtain ⟨zone, printed, count, parsed⟩ := sent
    exact Dashboard.translate_zoneCount zone count parsed

/-- The row of a write to a watched table, as its columns are sent. -/
def Row.ofWrite (texts : Texts) : Write → Option Row
  | .putCurrent v row => some (.vehicleCurrentState v row.status.text row.batteryPct)
  | .putZone z n => some (.zoneCounts z n)
  | .appendAnomaly row => some (.anomalies row.vehicleId row.anomalyType.text
      (row.detail.map (Detail.text texts.details)) (texts.timestamp row.detectedAt))
  | _ => none

theorem writable_message {row : Row} (exact : row.Exact floats) :
    Writable floats row.message := by
  cases row with
  | vehicleCurrentState vehicleId status batteryPct =>
    constructor
    -- the keys of a message are its columns, written out once each
    · change ["vehicle_id", "status", "battery_pct"].Nodup
      decide
    · simp only [Row.message, List.forall_mem_cons, fieldValue]
      refine ⟨by simp, by simp, ?_, by simp⟩
      rintro n ⟨rfl⟩
      -- the level is the only number whose text the writer chooses
      exact exact
  | anomalies vehicleId anomalyType detail detectedAt =>
    constructor
    · change ["vehicle_id", "anomaly_type", "detail", "detected_at"].Nodup
      decide
    · cases detail <;> simp [Row.message, fieldValue, Dashboard.detailJson]
  | zoneCounts zoneId entryCount =>
    constructor
    · change ["zone_id", "entry_count"].Nodup
      decide
    · simp only [Row.message, List.forall_mem_cons, fieldValue]
      refine ⟨by simp, ?_, by simp⟩
      rintro n ⟨rfl⟩
      trivial

end Rows

section Browser

variable {num : Numerals} {floats : Floats}

/-- What the socket carries for the decoded columns of a row. -/
def delivered (num : Numerals) (floats : Floats) (carrier : OrdMap String String) (table : String)
    (values : OrdMap String Datum) : Option (List Char) :=
  match Cdc.translate num table values with
  | .ok (some message) => some (fanOut floats (publishedText floats carrier message))
  | _ => none

/-- The text that arrives is parsed to the type and the payload of the row and nothing else,
and taken for the row's patch. -/
def Faithful (num : Numerals) (floats : Floats) (carrier : OrdMap String String)
    (values : OrdMap String Datum) (row : Row) : Prop :=
  ∃ text, delivered num floats carrier row.table values = some text ∧
    jsonParse floats text = some row.received ∧
    parsePatch row.received = some (Json.ofString row.type, row.payload)

theorem delivered_sent {row : Row} {values : OrdMap String Datum} (sent : row.Sent num values)
    (exact : row.Exact floats) (carrier : OrdMap String String) :
    delivered num floats carrier row.table values =
      some (dumps floats (.object (envelope row.message))) := by
  rw [delivered, translate_sent sent]
  exact congrArg some (fanOut_publishedText carrier (writable_message exact))

theorem jsonParse_envelope {message : Message} (writable : Writable floats message) :
    jsonParse floats (dumps floats (.object (envelope message))) =
      (Json.object (envelope message)).traverse (parseNumber floats ∘ PyNumber.text floats) :=
  read_dumps _ (.object (nodup_keys_envelope message) (wellFormed_envelope writable))

variable (floats) in
theorem parseNumber_int {n : Int} (small : n.natAbs ≤ 2 ^ 53) :
    parseNumber floats (PyNumber.text floats (.int n)) = some (.finite n) := by
  rw [parseNumber, PyNumber.text, if_pos (Json.isNumber_intText n), floats.nearest_int n small]

theorem parseNumber_finite {q : ℚ} (exact : floats.Exact q) :
    parseNumber floats (PyNumber.text floats (.float (.finite q))) = some (.finite q) := by
  rw [parseNumber, PyNumber.text, if_pos exact.number, exact.nearest]

theorem parsePatch_received (row : Row) :
    parsePatch row.received = some (Json.ofString row.type, row.payload) := by
  have apart : (Json.ofString "payload" == Json.ofString "type") = false :=
    beq_false_of_ne fun same => absurd (Json.ofString_injective same) (by decide)
  have known : Json.ofString row.type ∈ knownTypes := by
    apply List.mem_map_of_mem
    cases row <;> simp [Row.type]
  have object : isObject row.payload = true := by
    cases row <;> rfl
  simp [parsePatch, Row.received, List.lookup_cons, apart, known, object]

/-- A battery level within its bounds is finite. -/
theorem finite_of_bounds {d : Double} (bounds : BatteryBounds d) : ∃ q, d = .finite q := by
  cases d with
  | finite q => exact ⟨q, rfl⟩
  | posInf => cases bounds.2
  | negInf | nan => cases bounds.1

theorem jsonParse_received {row : Row} (committable : row.Committable) (exact : row.Exact floats) :
    jsonParse floats (dumps floats (.object (envelope row.message))) = some row.received := by
  rw [jsonParse_envelope (writable_message exact)]
  cases row with
  | vehicleCurrentState vehicleId status batteryPct =>
    obtain ⟨q, rfl⟩ := finite_of_bounds committable
    have battery := parseNumber_finite exact
    simp only [envelope, Row.message, List.map_cons, List.map_nil, fieldValue, Json.traverse,
      Json.traverseMembers, Json.traverseMember, Function.comp_apply, battery]
    rfl
  | anomalies vehicleId anomalyType detail detectedAt =>
    cases detail <;> rfl
  | zoneCounts zoneId entryCount =>
    obtain ⟨lower, upper⟩ := committable
    -- an `integer` column is exact in a double
    have small : entryCount.natAbs ≤ 2 ^ 53 := by
      unfold maxInteger at lower upper
      omega
    have count := parseNumber_int floats small
    simp only [envelope, Row.message, List.map_cons, List.map_nil, fieldValue, Json.traverse,
      Json.traverseMembers, Json.traverseMember, Function.comp_apply, count]
    rfl

/-- Every row that can be committed arrives at the dashboard as it is, whatever carrier it
travelled with. -/
theorem faithful_of_committable (num : Numerals) (floats : Floats)
    (carrier : OrdMap String String) (values : OrdMap String Datum) (row : Row)
    (committable : row.Committable) (sent : row.Sent num values) (exact : row.Exact floats) :
    Faithful num floats carrier values row :=
  ⟨_, delivered_sent sent exact carrier, jsonParse_received committable exact,
    parsePatch_received row⟩

/-- Digits are read as integers, and one battery level has its decimal. -/
def chargedFloats : Floats where
  repr q := if q = 95 then ['9', '5', '.', '0'] else ['0', '.', '0']
  nearest literal :=
    if Json.isFractional literal = true then
      if literal = ['9', '5', '.', '0'] then .finite 95 else .finite 0
    else .finite (Json.readInt literal)
  nearest_int n _ := by simp [Json.isFractional_intText, Json.readInt_intText]

def columnNumerals : Numerals where
  float text := if text = "95" then .ok (.finite 95) else .error .valueError
  int text := match text.toInt? with
    | some n => .ok n
    | none => .error .valueError

def batteryColumns (printed : String) : OrdMap String Datum :=
  ((OrdMap.empty.set "vehicle_id" (.text "agv-1")).set "status" (.text "moving")).set
    "battery_pct" (.text printed)

/-- A level of 95 percent under a carrier. -/
theorem faithful_of_committable_charged : Faithful columnNumerals chargedFloats
    (OrdMap.empty.set "traceparent" "00-1-2-01") (batteryColumns "95")
    (.vehicleCurrentState "agv-1" "moving" (.finite 95)) := by
  have exact : chargedFloats.Exact 95 := by
    constructor <;> decide
  have sent : (Row.vehicleCurrentState "agv-1" "moving" (.finite 95)).Sent columnNumerals
      (batteryColumns "95") := ⟨rfl, rfl, "95", rfl, rfl⟩
  exact faithful_of_committable _ _ _ _ _ (by constructor <;> decide) sent exact

example : delivered columnNumerals chargedFloats (OrdMap.empty.set "traceparent" "00-1-2-01")
    "vehicle_current_state" (batteryColumns "95") = some
      ("\x7b\"type\": \"vehicle_state_changed\", \"payload\": \x7b\"vehicle_id\": \"agv-1\", " ++
        "\"status\": \"moving\", \"battery_pct\": 95.0\x7d\x7d").toList := by
  decide +kernel

end Browser

end FleetTelemetry.Frontend
