import FleetTelemetry.Cdc.Decoding
import FleetTelemetry.Foundations.JsonNumbers

/-!
# The envelope on its way to the browser

`_emit` writes the envelope with `json.dumps`, `_fan_out` reads it with `json.loads` and
writes it again when there is a trace carrier to take out, and the dashboard reads what
arrives with `JSON.parse` and `parsePatch`. The text is ASCII, so Redis and the socket
carry it unchanged.
-/

namespace FleetTelemetry.Frontend

open Foundations
open Cdc (Message)

/-- A number as Python's JSON module holds it. -/
inductive PyNumber where
  | int (n : Int)
  | float (d : Double)
  deriving DecidableEq, Repr

/-- `float.__repr__` of the finite floats, and the double nearest to a decimal literal, which
`float()` and `JSON.parse` both return. Integers up to 2^53 are doubles. -/
structure Floats where
  repr : ℚ → List Char
  nearest : List Char → Double
  nearest_int : ∀ n : Int, n.natAbs ≤ 2 ^ 53 → nearest (Json.intText n) = .finite n

section Python

variable (floats : Floats)

def nanText : List Char := ['N', 'a', 'N']
def infinityText : List Char := ['I', 'n', 'f', 'i', 'n', 'i', 't', 'y']

/-- `json.dumps` of a number, under its default `allow_nan`. -/
def PyNumber.text : PyNumber → List Char
  | int n => Json.intText n
  | float (.finite q) => floats.repr q
  | float .posInf => infinityText
  | float .negInf => '-' :: infinityText
  | float .nan => nanText

/-- The literals `json.loads` takes: those of the grammar, and three that are not in it. -/
def loadsNumber (literal : List Char) : Option PyNumber :=
  if literal = nanText then some (.float .nan)
  else if literal = infinityText then some (.float .posInf)
  else if literal = '-' :: infinityText then some (.float .negInf)
  else if Json.isNumber literal then
    if Json.isFractional literal then some (.float (floats.nearest literal))
    else some (.int (Json.readInt literal))
  else none

def dumps (v : Json PyNumber) : List Char := v.write (PyNumber.text floats)

def loads (text : List Char) : Option (Json PyNumber) := Json.read (loadsNumber floats) text

/-- A Python dict with string keys. -/
abbrev Dict := List (List UInt16 × Json PyNumber)

def fieldValue : Cdc.Json → Json PyNumber
  | .null => .null
  | .string s => .string (Json.ofString s)
  | .float d => .number (.float d)
  | .integer n => .number (.int n)

def envelope (message : Message) : Dict :=
  [(Json.ofString "type", .string (Json.ofString message.type)),
    (Json.ofString "payload",
      .object (message.payload.map fun field => (Json.ofString field.1, fieldValue field.2)))]

def traceContextKey : List UInt16 := Json.ofString "_trace"

def carrierValue (carrier : OrdMap String String) : Json PyNumber :=
  .object (carrier.entries.map fun entry =>
    (Json.ofString entry.1, .string (Json.ofString entry.2)))

-- Without a recording span, or when the propagator raises, there is nothing to attach.
def injectTraceContext (carrier : OrdMap String String) (envelope : Dict) : Dict :=
  if carrier.entries = [] then envelope
  else Json.insert traceContextKey (carrierValue carrier) envelope

/-- The message `_emit` publishes. -/
def publishedText (carrier : OrdMap String String) (message : Message) : List Char :=
  dumps floats (.object (injectTraceContext carrier (envelope message)))

instance lawfulBEq_units : LawfulBEq (List UInt16) := inferInstance

def stripTraceContext (envelope : Dict) : Dict :=
  envelope.filter fun member => member.1 != traceContextKey

/-- The text `_fan_out` broadcasts. -/
def fanOut (data : List Char) : List Char :=
  match loads floats data with
  | some (.object envelope) =>
    if traceContextKey ∈ envelope.map Prod.fst then
      dumps floats (.object (stripTraceContext envelope))
    else data
  | _ => data

end Python

section Browser

variable (floats : Floats)

/-- `JSON.parse` takes the numbers of the grammar, all of them as doubles. -/
def parseNumber (literal : List Char) : Option Double :=
  if Json.isNumber literal then some (floats.nearest literal) else none

def jsonParse (text : List Char) : Option (Json Double) := Json.read (parseNumber floats) text

def knownTypes : List (List UInt16) :=
  ["vehicle_state_changed", "anomaly_detected", "zone_count_changed"].map Json.ofString

/-- `typeof value === "object" && value !== null`. -/
def isObject : Json Double → Bool
  | .object _ => true
  | .array _ => true
  | _ => false

/-- The type and the payload of a known patch. -/
def parsePatch : Json Double → Option (List UInt16 × Json Double)
  | .object members =>
    match members.lookup (Json.ofString "type"), members.lookup (Json.ofString "payload") with
    | some (.string type), some payload =>
      if type ∈ knownTypes ∧ isObject payload = true then some (type, payload) else none
    | _, _ => none
  -- an array has neither property
  | _ => none

end Browser

end FleetTelemetry.Frontend
