import FleetTelemetry.Cdc.Protocol

/-!
# The event stream as a function of the message stream

What the consumer is for: one event for each insert or update of a watched table, read
off the new tuple by column name under the latest Relation message of its OID. The
decoder refines this on every stream in which each row change is described by such a
Relation message.
-/

namespace FleetTelemetry.Cdc

open Foundations Foundations.Wire

inductive FieldKind where
  | text
  | float
  | int
  deriving DecidableEq

/-- The payload of a table's event: its columns and how each is read. -/
def eventFields (table : String) : List (String × FieldKind) :=
  if table = "vehicle_current_state" then
    [("vehicle_id", .text), ("status", .text), ("battery_pct", .float)]
  else if table = "anomalies" then
    [("vehicle_id", .text), ("anomaly_type", .text), ("detail", .text), ("detected_at", .text)]
  else [("zone_id", .text), ("entry_count", .int)]

def fieldJson (num : Numerals) : FieldKind → Datum → Json
  | .text, .text s => .string s
  | .float, .text s => match num.float s with
    | .ok x => .float x
    | .error _ => .null
  | .int, .text s => match num.int s with
    | .ok n => .integer n
    | .error _ => .null
  | _, .null => .null
  | _, .unchanged => .null

def Relation.columnNames (r : Relation) : List String := r.columns.map fun c => c.name.text

/-- The datum of the named column. -/
def Relation.column (r : Relation) (t : Tuple) (name : String) : Datum :=
  ((r.columnNames.zip t.data).lookup name).getD .null

/-- The latest Relation message for the OID. -/
def latestRelation (sent : List PgMessage) (oid : Int) : Option Relation :=
  sent.reverse.findSome? fun
    | .relation r => if r.oid.val = oid then some r else none
    | _ => none

def rowEvent (num : Numerals) (r : Relation) (new : Tuple) : Option Message :=
  (tableEventTypes.lookup r.name.text).map fun type =>
    ⟨type, (eventFields r.name.text).map fun f => (f.1, fieldJson num f.2 (r.column new f.1))⟩

/-- The event of a message after the messages sent before it. -/
def event (num : Numerals) (sent : List PgMessage) : PgMessage → Option Message
  | .insert oid new => (latestRelation sent oid.val).bind fun r => rowEvent num r new
  | .update oid _ new => (latestRelation sent oid.val).bind fun r => rowEvent num r new
  | _ => none

/-- The events of the messages that follow those already sent. -/
def events (num : Numerals) : List PgMessage → List PgMessage → List Message
  | _, [] => []
  | sent, m :: msgs => (event num sent m).toList ++ events num (sent ++ [m]) msgs

/-- The columns an event takes from a watched row can be read. -/
structure Readable (num : Numerals) (r : Relation) (t : Tuple) : Prop where
  named : ∀ f ∈ eventFields r.name.text, f.1 ∈ r.columnNames
  texts : ∀ name, (name, .text) ∈ eventFields r.name.text → r.column t name ≠ .unchanged
  floats : ∀ name s, (name, .float) ∈ eventFields r.name.text → r.column t name = .text s →
    ∃ x, num.float s = .ok x
  ints : ∀ name s, (name, .int) ∈ eventFields r.name.text → r.column t name = .text s →
    ∃ n, num.int s = .ok n

/-- The Relation message describes the tuple. -/
structure Describes (num : Numerals) (r : Relation) (t : Tuple) : Prop where
  distinct : r.columnNames.Nodup
  complete : t.data.length = r.columns.length
  watched : (tableEventTypes.lookup r.name.text).isSome = true → Readable num r t

/-- A row change follows a Relation message for its OID that describes its tuple. -/
def Described (num : Numerals) (sent : List PgMessage) : PgMessage → Prop
  | .insert oid new => ∃ r, latestRelation sent oid.val = some r ∧ Describes num r new
  | .update oid old new => ∃ r, latestRelation sent oid.val = some r ∧ Describes num r new ∧
    ∀ kind t, old = some (kind, t) → t.data.length ≤ r.columns.length
  | _ => True

def DescribedAll (num : Numerals) : List PgMessage → List PgMessage → Prop
  | _, [] => True
  | sent, m :: msgs => Described num sent m ∧ DescribedAll num (sent ++ [m]) msgs

section Cache

/-- The cache holds the latest relation of each OID. -/
def Cached (c : Consumer) (sent : List PgMessage) : Prop :=
  ∀ oid, c.relations.get? oid = (latestRelation sent oid).map Relation.cached

def Consumer.remember (c : Consumer) : PgMessage → Consumer
  | .relation r => { c with relations := c.relations.set r.oid.val r.cached }
  | _ => c

@[simp] theorem remember_published (c : Consumer) (m : PgMessage) :
    (c.remember m).published = c.published := by
  cases m <;> rfl

@[simp] theorem remember_lastLsn (c : Consumer) (m : PgMessage) :
    (c.remember m).lastLsn = c.lastLsn := by
  cases m <;> rfl

theorem latestRelation_snoc (sent : List PgMessage) (m : PgMessage) (oid : Int) :
    latestRelation (sent ++ [m]) oid =
      match m with
      | .relation r => if r.oid.val = oid then some r else latestRelation sent oid
      | _ => latestRelation sent oid := by
  unfold latestRelation
  rw [List.reverse_append, List.reverse_singleton, List.singleton_append, List.findSome?_cons]
  cases m with
  | relation r =>
    by_cases same : r.oid.val = oid
    · simp [same]
    · simp [same]
  | insert | update | silent => rfl

theorem cached_new : Cached .new [] := fun _ => rfl

theorem Cached.remember {c : Consumer} {sent : List PgMessage} (cached : Cached c sent)
    (m : PgMessage) : Cached (c.remember m) (sent ++ [m]) := by
  intro oid
  rw [latestRelation_snoc]
  cases m with
  | relation r =>
    simp only [Consumer.remember, OrdMap.get?_set, cached oid]
    by_cases same : r.oid.val = oid
    · simp [same]
    · have apart : oid ≠ r.oid.val := fun equal => same equal.symm
      simp [same, apart]
  | insert | update | silent => exact cached oid

end Cache

end FleetTelemetry.Cdc
