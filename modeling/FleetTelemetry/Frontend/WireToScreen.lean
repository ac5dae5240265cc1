import FleetTelemetry.Cdc.Receiving
import FleetTelemetry.Frontend.Registry
import FleetTelemetry.Frontend.Screen

/-!
# From the WAL to a page

The replication stream of the committed writes, one consumer after the other, the channel,
the subscriber with its fan-out, and a page that stays connected. The bytes lose nothing
and change nothing: the page ends where the writes themselves take it.
-/

namespace FleetTelemetry.Frontend

open Foundations Foundations.Wire
open Cdc (Numerals Datum Message PgMessage Consumer Cached latestRelation item rowOf
  decodePgoutput decodeAll ok_bind)
open Dashboard (App)

/-- The row change is the write: each of its columns is sent under its name, under the
relation that was last sent for the table. There may be further columns. -/
structure Carries (texts : Texts) (sent : List PgMessage) (change : Cdc.Row) (w : Write) :
    Prop where
  described : latestRelation sent change.table.oid.val = some change.table
  distinct : change.table.columnNames.Nodup
  complete : change.new.data.length = change.table.columns.length
  row : ∃ columns, w.row texts = some (change.table.name.text, columns) ∧
    ∀ column ∈ columns, column ∈ change.table.columnNames.zip change.new.data

/-- The messages the writes are streamed as, behind those already sent. A write to a table
outside the publication has none. -/
inductive Stream (texts : Texts) : List PgMessage → List PgMessage → List Write → Prop
  | done (sent : List PgMessage) : Stream texts sent [] []
  | silent {sent : List PgMessage} {m : PgMessage} {msgs : List PgMessage} {ws : List Write}
      (other : m.row? = none) (later : Stream texts (sent ++ [m]) msgs ws) :
      Stream texts sent (m :: msgs) ws
  | change {sent : List PgMessage} {change : Cdc.Row} {w : Write} {msgs : List PgMessage}
      {ws : List Write} (carries : Carries texts sent change w)
      (later : Stream texts (sent ++ [change.message]) msgs ws) :
      Stream texts sent (change.message :: msgs) (w :: ws)
  | unpublished {sent : List PgMessage} {w : Write} {msgs : List PgMessage} {ws : List Write}
      (other : w.row texts = none) (later : Stream texts sent msgs ws) :
      Stream texts sent msgs (w :: ws)

/-- The messages of the rows of the watched tables. -/
def messages (texts : Texts) (ws : List Write) : List Message :=
  (ws.filterMap (Row.ofWrite texts)).map Row.message

section Decoding

variable {num : Numerals} {texts : Texts}

theorem item_zip {names : List String} {data : List Datum} (distinct : names.Nodup)
    (complete : data.length = names.length) {column : String × Datum}
    (sent : column ∈ names.zip data) : item (rowOf names data) column.1 = .ok column.2 := by
  have unique : ((names.zip data).map Prod.fst).Nodup := by
    rw [List.map_fst_zip complete.ge]
    exact distinct
  have found : (rowOf names data).get? column.1 = some column.2 := by
    rw [Cdc.get?_rowOf distinct complete.ge]
    exact OrdMap.lookup_of_mem unique sent
  rw [item, found]

/-- A dictionary with all columns of a write holds its row. -/
theorem sent_of_columns {w : Write} {table : String} {columns : List (String × Datum)}
    {values : OrdMap String Datum} (stored : w.row texts = some (table, columns))
    (printed : w.Printed num texts)
    (holds : ∀ column ∈ columns, item values column.1 = .ok column.2) :
    ∃ row, Row.ofWrite texts w = some row ∧ table = row.table ∧ row.Sent num values := by
  -- the columns an event needs are among those of its table
  cases w with
  | putCurrent v current =>
    cases stored
    simp only [currentStateColumns, List.forall_mem_cons] at holds
    obtain ⟨vehicleId, status, batteryPct, _⟩ := holds
    exact ⟨_, rfl, rfl, vehicleId, status, _, batteryPct, printed⟩
  | putZone z n =>
    cases stored
    simp only [zoneCountColumns, List.forall_mem_cons] at holds
    obtain ⟨zoneId, entryCount, _⟩ := holds
    exact ⟨_, rfl, rfl, zoneId, _, entryCount, printed⟩
  | appendAnomaly a =>
    cases stored
    simp only [anomalyColumns, List.forall_mem_cons] at holds
    obtain ⟨vehicleId, anomalyType, detail, detectedAt, _⟩ := holds
    exact ⟨_, rfl, rfl, vehicleId, anomalyType, detail, detectedAt⟩
  | appendRaw | putVehicle | putMission | appendMaintenance => cases stored

theorem ofWrite_none {w : Write} (other : w.row texts = none) : Row.ofWrite texts w = none := by
  cases w with
  | putCurrent | putZone | appendAnomaly => cases other
  | appendRaw | putVehicle | putMission | appendMaintenance => rfl

/-- A carried write is published once, as the message of its row. -/
theorem decodePgoutput_carried {c : Consumer} {sent : List PgMessage} {change : Cdc.Row}
    {w : Write} (cached : Cached c sent) (carries : Carries texts sent change w)
    (printed : w.Printed num texts) :
    decodePgoutput num (fun _ => .ok ()) c change.message.encode =
      .ok { c with published := c.published ++ messages texts [w] } := by
  obtain ⟨columns, stored, within⟩ := carries.row
  -- the relation was sent before the row, so the consumer has it cached
  have known : c.relations.get? change.table.oid.val = some change.table.cached := by
    rw [cached, carries.described]
    rfl
  have complete : change.new.data.length = change.table.columnNames.length := by
    rw [carries.complete, Cdc.Relation.columnNames, List.length_map]
  have holds : ∀ column ∈ columns,
      item (rowOf change.table.cached.2 change.new.data) column.1 = .ok column.2 := by
    intro column member
    exact item_zip carries.distinct complete (within column member)
  obtain ⟨row, is, table, held⟩ := sent_of_columns stored printed holds
  have translated : Cdc.translate num change.table.name.text
      (rowOf change.table.cached.2 change.new.data) = .ok (some row.message) := by
    rw [table]
    exact translate_sent held
  rw [Cdc.decodePgoutput_row c change.message change.table change.shape known change.new_fits
      change.old_fits, Cdc.emit_cached c _ change.table.name.text change.table.columnNames _ known,
    translated, ok_bind, messages, List.filterMap_cons_some is]
  rfl

theorem remember_row (c : Consumer) {m : PgMessage} {row : WireInt 4 × Option Cdc.Tuple × Cdc.Tuple}
    (is : m.row? = some row) : c.remember m = c := by
  cases m with
  | relation | silent => cases is
  | insert | update => rfl

/-- The consumer publishes the rows of the writes in order and nothing else. -/
theorem decodeAll_stream {sent msgs : List PgMessage} {ws : List Write}
    (stream : Stream texts sent msgs ws) (printed : ∀ w ∈ ws, w.Printed num texts)
    (c : Consumer) (cached : Cached c sent) :
    ∃ c', decodeAll num c (msgs.map PgMessage.encode) = .ok c' ∧
      c'.published = c.published ++ messages texts ws := by
  induction stream generalizing c with
  | done sent => exact ⟨c, rfl, (List.append_nil _).symm⟩
  | @silent sent m msgs ws other later ih =>
    obtain ⟨c', decoded, published⟩ := ih printed (c.remember m) (cached.remember m)
    refine ⟨c', ?_, ?_⟩
    · rw [List.map_cons, decodeAll, List.foldlM_cons, Cdc.decodePgoutput_other c m other, ok_bind]
      exact decoded
    · rw [published, Cdc.remember_published]
  | @change sent change w msgs ws carries later ih =>
    rw [List.forall_mem_cons] at printed
    -- the row leaves the cache as it is, and the cache is all that later rows read
    have kept := cached.remember change.message
    rw [remember_row c change.shape] at kept
    obtain ⟨c', decoded, published⟩ :=
      ih printed.2 { c with published := c.published ++ messages texts [w] } kept
    refine ⟨c', ?_, ?_⟩
    · rw [List.map_cons, decodeAll, List.foldlM_cons,
        decodePgoutput_carried cached carries printed.1, ok_bind]
      exact decoded
    · rw [published, List.append_assoc]
      simp only [messages, ← List.map_append, ← List.filterMap_append, List.singleton_append]
  | @unpublished sent w msgs ws other later ih =>
    rw [List.forall_mem_cons] at printed
    obtain ⟨c', decoded, published⟩ := ih printed.2 c cached
    refine ⟨c', decoded, ?_⟩
    rw [published, messages, messages, List.filterMap_cons_none (ofWrite_none other)]

end Decoding

section Page

variable {C M : Type} [DecidableEq C]

/-- The client is registered before the first of the broadcasts, and stays until the last one
has ended; none of its sends raises. -/
structure Connected (c : C) (broadcasts : List M) (r : Registry C M)
    (actions : List (Action C M)) (r' : Registry C M) : Prop where
  run : Machine.run Registry.step r actions = some r'
  idle : r.current = none
  ended : r'.current = none
  registered : c ∈ r.connections
  stays : .remove c ∉ actions
  sends : .raised c ∉ actions
  broadcast : published actions = broadcasts

theorem Connected.received {c : C} {broadcasts : List M} {r r' : Registry C M}
    {actions : List (Action C M)} (connected : Connected c broadcasts r actions r') :
    r'.received c = r.received c ++ broadcasts := by
  have alive : ¬r.Failing c := by
    rintro ⟨b, running, _⟩
    rw [connected.idle] at running
    cases running
  have balance := (Registry.run_owed connected.run (Registry.proper_idle connected.idle)
    connected.registered alive connected.stays connected.sends).1
  simpa [Registry.owed, connected.idle, connected.ended, connected.broadcast] using balance

end Page

section Pipeline

/-- A validated battery level, a count of the column's type. -/
def Valid : Write → Prop
  | .putCurrent _ row => BatteryBounds row.batteryPct
  | .putZone _ n => -maxInteger - 1 ≤ n ∧ n ≤ maxInteger
  | _ => True

/-- What the number formats and the limits of the interpreter have to do for a write. -/
structure Legible (num : Numerals) (texts : Texts) (floats : Floats) (limits : Limits)
    (w : Write) : Prop where
  printed : w.Printed num texts
  exact : ∀ row, Row.ofWrite texts w = some row → row.Exact floats
  roomy : ∀ row, Row.ofWrite texts w = some row → row.Roomy floats limits

/-- What a new consumer publishes of the messages of its session. -/
def publishes (num : Numerals) (msgs : List PgMessage) : Except PyError (List Message) :=
  (decodeAll num .new (msgs.map PgMessage.encode)).map Consumer.published

variable {num : Numerals} {texts : Texts} {floats : Floats} {limits : Limits}

theorem committable_of_valid {w : Write} (valid : Valid w) {row : Row}
    (is : Row.ofWrite texts w = some row) : row.Committable := by
  cases w with
  | putCurrent v current =>
    cases is
    exact valid
  | putZone z n =>
    cases is
    exact valid
  | appendAnomaly a =>
    cases is
    trivial
  | appendRaw | putVehicle | putMission | appendMaintenance => cases is

theorem publishes_stream {msgs : List PgMessage} {ws : List Write}
    (stream : Stream texts [] msgs ws) (printed : ∀ w ∈ ws, w.Printed num texts) :
    publishes num msgs = .ok (messages texts ws) := by
  obtain ⟨c, decoded, published⟩ := decodeAll_stream stream printed .new Cdc.cached_new
  rw [publishes, decoded, Except.map, published]
  rfl

theorem publishes_sessions {sessions : List (List PgMessage)} {logs : List (List Write)}
    (streamed : List.Forall₂ (Stream texts []) sessions logs)
    (printed : ∀ w ∈ logs.flatten, w.Printed num texts) :
    List.Forall₂ (fun msgs batch => publishes num msgs = .ok batch) sessions
      (logs.map (messages texts)) := by
  induction streamed with
  | nil => exact .nil
  | @cons msgs ws sessions logs first _ ih =>
    rw [List.flatten_cons, List.forall_mem_append] at printed
    exact .cons (publishes_stream first printed.1) (ih printed.2)

theorem flatten_messages (logs : List (List Write)) :
    (logs.map (messages texts)).flatten = messages texts logs.flatten := by
  simp only [messages, List.filterMap_flatten, List.map_flatten, List.map_map]
  rfl

/-- Whatever the sessions of the consumer: no stage raises, every frame is one that a page takes,
and together they take a page where the writes themselves would take it. -/
theorem frames_follow {sessions : List (List PgMessage)} {logs : List (List Write)}
    (streamed : List.Forall₂ (Stream texts []) sessions logs)
    (valid : ∀ w ∈ logs.flatten, Valid w)
    (legible : ∀ w ∈ logs.flatten, Legible num texts floats limits w) :
    ∃ batches frames, List.Forall₂ (fun msgs batch => publishes num msgs = .ok batch) sessions
        batches ∧
      (∀ channel, List.Forall₂ (Published floats) batches.flatten channel →
        redisSubscriber floats limits channel = (frames, none)) ∧
      (∀ frame ∈ frames, (Browser.event floats frame).isSome = true) ∧
      ∀ app : App, frames.foldl (hear floats) app = logs.flatten.foldl (App.deliver texts) app := by
  -- every row is that of a write, which brings its texts with it
  have source : ∀ row ∈ logs.flatten.filterMap (Row.ofWrite texts),
      ∃ w ∈ logs.flatten, Row.ofWrite texts w = some row := fun _ => List.mem_filterMap.mp
  have exact : ∀ row ∈ logs.flatten.filterMap (Row.ofWrite texts), row.Exact floats := by
    intro row member
    obtain ⟨w, listed, is⟩ := source row member
    exact (legible w listed).exact row is
  have roomy : ∀ row ∈ logs.flatten.filterMap (Row.ofWrite texts), row.Roomy floats limits := by
    intro row member
    obtain ⟨w, listed, is⟩ := source row member
    exact (legible w listed).roomy row is
  refine ⟨_, (logs.flatten.filterMap (Row.ofWrite texts)).map (Row.frame floats),
    publishes_sessions streamed fun w listed => (legible w listed).printed, ?_, ?_, ?_⟩
  · intro channel carried
    rw [flatten_messages, messages] at carried
    exact redisSubscriber_published carried exact roomy
  · intro frame sent
    obtain ⟨row, member, rfl⟩ := List.mem_map.mp sent
    obtain ⟨w, listed, is⟩ := source row member
    rw [event_frame (committable_of_valid (valid w listed) is) (exact row member)]
    rfl
  · exact foldl_hear _ (fun w listed _ => committable_of_valid (valid w listed))
      (fun w listed => (legible w listed).exact)

end Pipeline

end FleetTelemetry.Frontend
