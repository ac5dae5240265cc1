import FleetTelemetry.Dashboard.Convergence
import FleetTelemetry.Frontend.Subscriber
import FleetTelemetry.Frontend.Transport

/-!
# From the WAL to the screen

The way of a committed row through every stage: the pgoutput messages of the server, the
decoder and the envelope of the consumer, the bytes on the channel, the subscriber with its
fan-out, the frame on the socket, and the handler of `App`. The dashboard ends in the state
it has when the committed writes themselves are handed to it.
-/

namespace FleetTelemetry.Frontend

open Foundations Foundations.Wire
open Cdc (Numerals Message PgMessage)
open Dashboard (App PatchEvent)

namespace Browser

def property (payload : Json Double) (name : String) : Option (Json Double) :=
  match payload with
  | .object members => members.lookup (Json.ofString name)
  | _ => none

def text (payload : Json Double) (name : String) : Option String :=
  match property payload name with
  | some (.string s) => Json.toText s
  | _ => none

/-- A text property that may be null. -/
def optional (payload : Json Double) (name : String) : Option (Option String) :=
  match property payload name with
  | some (.string s) => (Json.toText s).map some
  | some .null => some none
  | _ => none

def number (payload : Json Double) (name : String) : Option Double :=
  match property payload name with
  | some (.number d) => some d
  | _ => none

def integer (payload : Json Double) (name : String) : Option Int :=
  match number payload name with
  | some (.finite q) => if q.den = 1 then some q.num else none
  | _ => none

/-- What the cast of `parsePatch` takes a type and a payload for. -/
def typedEvent (patch : List UInt16 × Json Double) : Option PatchEvent :=
  if patch.1 = Json.ofString "vehicle_state_changed" then do
    let vehicleId ← text patch.2 "vehicle_id"
    let status ← text patch.2 "status"
    let batteryPct ← number patch.2 "battery_pct"
    some (.vehicleStateChanged ⟨vehicleId, status, batteryPct⟩)
  else if patch.1 = Json.ofString "anomaly_detected" then do
    let vehicleId ← text patch.2 "vehicle_id"
    let anomalyType ← text patch.2 "anomaly_type"
    let detail ← optional patch.2 "detail"
    let detectedAt ← text patch.2 "detected_at"
    some (.anomalyDetected ⟨vehicleId, anomalyType, detail, detectedAt⟩)
  else if patch.1 = Json.ofString "zone_count_changed" then do
    let zoneId ← text patch.2 "zone_id"
    let entryCount ← integer patch.2 "entry_count"
    some (.zoneCountChanged ⟨zoneId, entryCount⟩)
  else none

/-- The event that a frame calls the handler with, if any. -/
def event (floats : Floats) (frame : List Char) : Option PatchEvent :=
  (onMessage floats (.text frame)).bind typedEvent

end Browser

/-- The event the row is meant to arrive as. -/
def Row.patch : Row → PatchEvent
  | vehicleCurrentState vehicleId status batteryPct =>
    .vehicleStateChanged ⟨vehicleId, status, batteryPct⟩
  | anomalies vehicleId anomalyType detail detectedAt =>
    .anomalyDetected ⟨vehicleId, anomalyType, detail, detectedAt⟩
  | zoneCounts zoneId entryCount => .zoneCountChanged ⟨zoneId, entryCount⟩

section Typed

theorem property_cons (name key : String) (v : Json Double)
    (rest : List (List UInt16 × Json Double)) :
    Browser.property (.object ((Json.ofString key, v) :: rest)) name =
      if name = key then some v else Browser.property (.object rest) name := by
  rw [Browser.property, List.lookup_cons]
  by_cases same : name = key
  · subst same
    simp
  · have apart : (Json.ofString name == Json.ofString key) = false :=
      beq_false_of_ne fun equal => same (Json.ofString_injective equal)
    rw [apart, if_neg same]
    rfl

theorem typedEvent_received (row : Row) :
    Browser.typedEvent (Json.ofString row.type, row.payload) = some row.patch := by
  -- the type is compared as code units, which keep different names apart
  have names (a b : String) (apart : a ≠ b) : Json.ofString a ≠ Json.ofString b := fun same =>
    apart (Json.ofString_injective same)
  cases row with
  | vehicleCurrentState vehicleId status batteryPct =>
    simp [Browser.typedEvent, Row.type, Row.payload, Browser.text, Browser.number, Row.text,
      Row.number, property_cons, Json.toText_ofString, Row.patch]
  | anomalies vehicleId anomalyType detail detectedAt =>
    have other := names "anomaly_detected" "vehicle_state_changed" (by decide)
    cases detail <;>
      simp [Browser.typedEvent, Row.type, other, Row.payload, Browser.text, Browser.optional,
        Row.text, Row.optional, property_cons, Json.toText_ofString, Row.patch]
  | zoneCounts zoneId entryCount =>
    have other := names "zone_count_changed" "vehicle_state_changed" (by decide)
    have other' := names "zone_count_changed" "anomaly_detected" (by decide)
    simp [Browser.typedEvent, Row.type, other, other', Row.payload, Browser.text,
      Browser.integer, Browser.number, Row.text, Row.number, property_cons,
      Json.toText_ofString, Row.patch]

end Typed

section Frames

variable {floats : Floats} {limits : Limits} {texts : Texts}

/-- The text that is broadcast for the row. -/
def Row.frame (floats : Floats) (row : Row) : List Char :=
  dumps floats (.object (envelope row.message))

/-- The bytes `_emit` publishes of the message, with some trace carrier or none. -/
def Published (floats : Floats) (message : Message) (data : List UInt8) : Prop :=
  ∃ carrier, data = utf8 (String.ofList (publishedText floats carrier message))

/-- The interpreter refuses neither the message of the row nor its envelope. -/
structure Row.Roomy (floats : Floats) (limits : Limits) (row : Row) : Prop where
  loads : ∀ carrier, limits.loads (publishedText floats carrier row.message) = false
  dumps : ∀ carrier,
    limits.dumps (stripTraceContext (injectTraceContext carrier (envelope row.message))) = false

/-- Within the limits `forward` is `fanOut`. -/
theorem forward_fanOut {data : List Char} (loaded : limits.loads data = false)
    (dumped : ∀ envelope, loads floats data = some (.object envelope) →
      limits.dumps (stripTraceContext envelope) = false) :
    forward floats limits data = .ok (fanOut floats data) := by
  have read : readEnvelope floats limits data = loads floats data := by
    rw [readEnvelope, loaded]
    rfl
  rw [forward, fanOut, read]
  -- a text that is no JSON, or no object, is passed on by both
  cases parsed : loads floats data with
  | none => rfl
  | some json =>
    cases json with
    | object envelope =>
      have fits := dumped envelope parsed
      by_cases carried : traceContextKey ∈ envelope.map Prod.fst
      · simp [carried, fits]
      · simp [carried]
    | null | bool | number | string | array => rfl

theorem receive_published {row : Row} {data : List UInt8}
    (published : Published floats row.message data) (exact : row.Exact floats)
    (roomy : row.Roomy floats limits) :
    receive floats limits data = .ok (row.frame floats) := by
  obtain ⟨carrier, rfl⟩ := published
  have writable := writable_message exact
  have loaded := loads_dumps (wellFormed_injectTraceContext carrier writable)
  rw [receive, decodeUtf8_utf8]
  have forwarded : forward floats limits (publishedText floats carrier row.message) =
      .ok (fanOut floats (publishedText floats carrier row.message)) := by
    refine forward_fanOut (roomy.loads carrier) ?_
    intro envelope is
    rw [publishedText, loaded, Option.some.injEq, Json.object.injEq] at is
    exact is ▸ roomy.dumps carrier
  rw [fanOut_publishedText carrier writable] at forwarded
  simpa [Row.frame] using forwarded

/-- The subscriber loop goes through and broadcasts the frame of each row. -/
theorem redisSubscriber_published {rows : List Row} {channel : List (List UInt8)}
    (published : List.Forall₂ (Published floats) (rows.map Row.message) channel)
    (exact : ∀ row ∈ rows, row.Exact floats) (roomy : ∀ row ∈ rows, row.Roomy floats limits) :
    redisSubscriber floats limits channel = (rows.map (Row.frame floats), none) := by
  rw [List.forall₂_map_left_iff] at published
  induction published with
  | nil => rfl
  | @cons row data rows channel first _ ih =>
    rw [List.forall_mem_cons] at exact roomy
    rw [redisSubscriber, receive_published first exact.1 roomy.1, ih exact.2 roomy.2]
    rfl

theorem event_frame {row : Row} (committable : row.Committable) (exact : row.Exact floats) :
    Browser.event floats (row.frame floats) = some row.patch := by
  rw [Browser.event, onMessage, Row.frame, jsonParse_received committable exact,
    Option.bind_some, parsePatch_received]
  exact typedEvent_received row

end Frames

section Page

variable {floats : Floats} {texts : Texts}

/-- The page once a frame has come in. -/
def hear (floats : Floats) (app : App) (frame : List Char) : App :=
  match Browser.event floats frame with
  | some event => app.onEvent event
  | none => app

theorem patch_ofWrite (texts : Texts) (w : Write) :
    w.patch texts = (Row.ofWrite texts w).map Row.patch := by
  cases w with
  | putCurrent | putZone | appendAnomaly => rfl
  | appendRaw | putVehicle | putMission | appendMaintenance => rfl

theorem hear_frame {w : Write} {row : Row} (is : Row.ofWrite texts w = some row)
    (committable : row.Committable) (exact : row.Exact floats) (app : App) :
    hear floats app (row.frame floats) = app.deliver texts w := by
  rw [hear, event_frame committable exact, App.deliver, patch_ofWrite, is]
  rfl

/-- The frames of a list of writes bring a page where the writes themselves do. -/
theorem foldl_hear (writes : List Write)
    (committable : ∀ w ∈ writes, ∀ row, Row.ofWrite texts w = some row → row.Committable)
    (exact : ∀ w ∈ writes, ∀ row, Row.ofWrite texts w = some row → row.Exact floats) (app : App) :
    ((writes.filterMap (Row.ofWrite texts)).map (Row.frame floats)).foldl (hear floats) app =
      writes.foldl (App.deliver texts) app := by
  induction writes generalizing app with
  | nil => rfl
  | cons w writes ih =>
    rw [List.forall_mem_cons] at committable exact
    have rest := ih committable.2 exact.2
    cases is : Row.ofWrite texts w with
    | none =>
      -- a table that is not watched has neither a frame nor a patch
      have silent : app.deliver texts w = app := by
        rw [App.deliver, patch_ofWrite, is]
        rfl
      rw [List.filterMap_cons_none is, rest, List.foldl_cons, silent]
    | some row =>
      have heard := hear_frame is (committable.1 row is) (exact.1 row is) app
      rw [List.filterMap_cons_some is, List.map_cons, List.foldl_cons, heard, rest,
        List.foldl_cons]

end Page

end FleetTelemetry.Frontend
