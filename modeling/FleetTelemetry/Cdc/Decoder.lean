import FleetTelemetry.Foundations.OrdMap
import FleetTelemetry.Cdc.Reader

/-!
# The pgoutput decoder

`CdcConsumer` from a CopyData payload to the published message. A Python exception ends
the function it is raised in; whatever had been assigned before stays assigned, which is
why `onCopyMessage` returns the consumer next to its outcome.

The decoder is written for any `float()` and `int()`, and the trace carrier of a message,
which is transport metadata, is left out.
-/

namespace FleetTelemetry.Cdc

open Foundations

/-- A decoded column: SQL null, an unchanged TOAST value, or its text. -/
inductive Datum where
  | null
  | unchanged
  | text (s : String)
  deriving DecidableEq, Repr

inductive PyValue where
  | none
  | unchanged
  | str (s : String)
  | float (d : Double)
  | int (n : Int)
  deriving DecidableEq, Repr

def Datum.value : Datum → PyValue
  | null => .none
  | unchanged => .unchanged
  | text s => .str s

inductive Json where
  | null
  | string (s : String)
  | float (d : Double)
  | integer (n : Int)
  deriving DecidableEq, Repr

/-- What is published: the serialized envelope. -/
structure Message where
  type : String
  payload : List (String × Json)
  deriving DecidableEq, Repr

/-- Python's `float(text)` and `int(text)`. -/
structure Numerals where
  float : String → Except PyError Double
  int : String → Except PyError Int

def vehicleStateChanged : String := "vehicle_state_changed"
def anomalyDetected : String := "anomaly_detected"
def zoneCountChanged : String := "zone_count_changed"

/-- `TABLE_EVENT_TYPES`. -/
def tableEventTypes : List (String × String) :=
  [("vehicle_current_state", vehicleStateChanged), ("anomalies", anomalyDetected),
    ("zone_counts", zoneCountChanged)]

section Payload

variable (num : Numerals)

/-- `v[name]`. -/
def item (v : OrdMap String Datum) (name : String) : Except PyError Datum :=
  match v.get? name with
  | some d => .ok d
  | none => .error .keyError

-- A null and the unchanged marker both read as `None` where a number is expected.
def asFloat : Datum → Except PyError PyValue
  | .text s => (num.float s).map .float
  | _ => .ok .none

def asInt : Datum → Except PyError PyValue
  | .text s => (num.int s).map .int
  | _ => .ok .none

def buildPayload (relname : String) (v : OrdMap String Datum) :
    Except PyError (List (String × PyValue)) :=
  if relname = "vehicle_current_state" then do
    let vehicleId ← item v "vehicle_id"
    let status ← item v "status"
    let battery ← item v "battery_pct"
    let batteryPct ← asFloat num battery
    return [("vehicle_id", vehicleId.value), ("status", status.value),
      ("battery_pct", batteryPct)]
  else if relname = "anomalies" then do
    let vehicleId ← item v "vehicle_id"
    let anomalyType ← item v "anomaly_type"
    let detail ← item v "detail"
    let detectedAt ← item v "detected_at"
    return [("vehicle_id", vehicleId.value), ("anomaly_type", anomalyType.value),
      ("detail", detail.value), ("detected_at", detectedAt.value)]
  else do
    -- the last branch of the source asks no name: it takes every other watched table
    let zoneId ← item v "zone_id"
    let count ← item v "entry_count"
    let entryCount ← asInt num count
    return [("zone_id", zoneId.value), ("entry_count", entryCount)]

/-- `json.dumps` of one value; the sentinel object is not serializable. -/
def PyValue.dumps : PyValue → Except PyError Json
  | none => .ok .null
  | unchanged => .error .typeError
  | str s => .ok (.string s)
  | float d => .ok (.float d)
  | int n => .ok (.integer n)

def dumpsAll : List (String × PyValue) → Except PyError (List (String × Json))
  | [] => .ok []
  | (key, v) :: rest => do
    let j ← v.dumps
    let others ← dumpsAll rest
    return (key, j) :: others

end Payload

structure Consumer where
  relations : OrdMap Int (String × List String)
  lastLsn : Int
  published : List Message

def Consumer.new : Consumer := ⟨.empty, 0, []⟩

section Decode

variable (num : Numerals) (publish : Message → Except PyError Unit)

/-- The loop of `_cache_relation` over the columns still to be read. -/
def readColumns : Nat → List String → Reader → Except PyError (List String × Reader)
  | 0, columns, r => .ok (columns, r)
  | n + 1, columns, r => do
    let (_, r) ← r.int8
    let (name, r) ← r.string
    let (_, r) ← r.int32
    let (_, r) ← r.int32
    readColumns n (columns ++ [name]) r

def cacheRelation (c : Consumer) (r : Reader) : Except PyError Consumer := do
  let (oid, r) ← r.int32
  let (_, r) ← r.string
  let (relname, r) ← r.string
  let (_, r) ← r.int8
  let (ncols, r) ← r.int16
  let (columns, _) ← readColumns ncols.toNat [] r
  return { c with relations := c.relations.set oid (relname, columns) }

/-- The value of one column after its kind byte. -/
def readDatum (kind : List UInt8) (r : Reader) : Except PyError (Datum × Reader) :=
  if kind = [110] then .ok (.null, r)
  else if kind = [117] then .ok (.unchanged, r)
  else do
    let (length, r) ← r.int32
    let (bs, r) := r.take length
    let text ← Bytes.decode bs
    return (.text text, r)

/-- The loop of `_read_tuple` from column `i` on. -/
def readColumnsOf (columns : List String) :
    Nat → Nat → OrdMap String Datum → Reader → Except PyError (OrdMap String Datum × Reader)
  | 0, _, values, r => .ok (values, r)
  | n + 1, i, values, r => do
    let (kind, r) := r.char
    -- a tuple with more columns than the cached relation fails at the first one past its end
    match columns[i]? with
    | none => .error .indexError
    | some name =>
      let (d, r) ← readDatum kind r
      readColumnsOf columns n (i + 1) (values.set name d) r

/-- `self._relations[oid]`. -/
def Consumer.relation (c : Consumer) (oid : Int) : Except PyError (String × List String) :=
  match c.relations.get? oid with
  | some relation => .ok relation
  | none => .error .keyError

def readTuple (c : Consumer) (oid : Int) (r : Reader) :
    Except PyError (OrdMap String Datum × Reader) := do
  let (_, columns) ← c.relation oid
  let (ncols, r) ← r.int16
  readColumnsOf columns ncols.toNat 0 .empty r

def emit (c : Consumer) (oid : Int) (values : OrdMap String Datum) : Except PyError Consumer := do
  let (relname, _) ← c.relation oid
  match tableEventTypes.lookup relname with
  | none => return c
  | some eventType => do
    let payload ← buildPayload num relname values
    let serialized ← dumpsAll payload
    -- serialization can fail on an unchanged value, before anything is published
    let message : Message := ⟨eventType, serialized⟩
    publish message
    return { c with published := c.published ++ [message] }

def decodePgoutput (c : Consumer) (payload : List UInt8) : Except PyError Consumer :=
  let (tag, r) := (Reader.new payload).char
  if tag = [82] then cacheRelation c r
  else if tag = [73] then do
    let (oid, r) ← r.int32
    let (_, r) := r.char
    let (values, _) ← readTuple c oid r
    emit num publish c oid values
  else if tag = [85] then do
    let (oid, r) ← r.int32
    let (kind, r) := r.char
    if kind = [75] ∨ kind = [79] then do
      -- the old tuple is read past, and so is the marker of the new one
      let (_, r) ← readTuple c oid r
      let (_, r) := r.char
      let (values, _) ← readTuple c oid r
      emit num publish c oid values
    else do
      let (values, _) ← readTuple c oid r
      emit num publish c oid values
  else return c

/-- `_on_copy_message`: the consumer after it, and whether a feedback was asked for. -/
def onCopyMessage (c : Consumer) (msg : List UInt8) : Consumer × Except PyError Bool :=
  if msg.take 1 = [119] then
    match Bytes.unpackFrom 8 msg 9 with
    | .error e => (c, .error e)
    | .ok walEnd =>
      -- the position counts as processed from here on, whatever the decoder does
      let c := { c with lastLsn := max c.lastLsn walEnd }
      match decodePgoutput num publish c (msg.drop 25) with
      | .error e => (c, .error e)
      | .ok c' => (c', .ok false)
  else if msg.take 1 = [107] then
    if msg.length < 18 then (c, .error .structError)
    else match Bytes.unpackFrom 8 msg 1, msg[17]? with
      | .ok walEnd, some reply =>
        ({ c with lastLsn := max c.lastLsn walEnd }, .ok (decide (reply ≠ 0)))
      | _, _ => (c, .error .structError)
  else (c, .ok false)

end Decode

end FleetTelemetry.Cdc
