import FleetTelemetry.Cdc.RowChanges

/-!
# The decoder refines the event stream

From the payload of one row to a whole stream: each message costs one step of the
consumer, and the steps publish exactly the events.
-/

namespace FleetTelemetry.Cdc

open Foundations Foundations.Wire

section Payload

variable {num : Numerals}

theorem get?_rowOf {names : List String} (distinct : names.Nodup) {data : List Datum}
    (long : names.length ≤ data.length) (name : String) :
    (rowOf names data).get? name = (names.zip data).lookup name := by
  have unique : ((names.zip data).map Prod.fst).Nodup := by
    rw [List.map_fst_zip long]
    exact distinct
  have folded := OrdMap.get?_foldl_entries _ unique .empty name
  simpa [rowOf] using folded

theorem item_rowOf {r : Relation} {t : Tuple} (describes : Describes num r t) (name : String)
    (named : name ∈ r.columnNames) :
    item (rowOf r.cached.2 t.data) name = .ok (r.column t name) := by
  have long : r.columnNames.length ≤ t.data.length := by
    rw [Relation.columnNames, List.length_map, describes.complete]
  have found : (rowOf r.cached.2 t.data).get? name = (r.columnNames.zip t.data).lookup name :=
    get?_rowOf describes.distinct long name
  -- a named column of a complete tuple has a value, so the row has no `KeyError` for it
  cases value : (r.columnNames.zip t.data).lookup name with
  | none =>
    have absent := List.lookup_eq_none_iff.mp value
    rw [← List.map_fst_zip long] at named
    obtain ⟨e, member, rfl⟩ := List.mem_map.mp named
    simpa using absent e member
  | some d =>
    rw [value] at found
    simp [item, found, Relation.column, value]

theorem value_dumps (num : Numerals) (d : Datum) (sent : d ≠ .unchanged) :
    d.value.dumps = .ok (fieldJson num .text d) := by
  cases d with
  | null => rfl
  | unchanged => exact (sent rfl).elim
  | text s => rfl

theorem asFloat_dumps (d : Datum) (parses : ∀ s, d = .text s → ∃ x, num.float s = .ok x) :
    ∃ v, asFloat num d = .ok v ∧ v.dumps = .ok (fieldJson num .float d) := by
  cases d with
  | null => exact ⟨_, rfl, rfl⟩
  | unchanged => exact ⟨_, rfl, rfl⟩
  | text s =>
    obtain ⟨x, parsed⟩ := parses s rfl
    refine ⟨.float x, ?_, ?_⟩
    · simp only [asFloat, parsed]
      rfl
    · simp only [fieldJson, parsed]
      rfl

theorem asInt_dumps (d : Datum) (parses : ∀ s, d = .text s → ∃ n, num.int s = .ok n) :
    ∃ v, asInt num d = .ok v ∧ v.dumps = .ok (fieldJson num .int d) := by
  cases d with
  | null => exact ⟨_, rfl, rfl⟩
  | unchanged => exact ⟨_, rfl, rfl⟩
  | text s =>
    obtain ⟨n, parsed⟩ := parses s rfl
    refine ⟨.int n, ?_, ?_⟩
    · simp only [asInt, parsed]
      rfl
    · simp only [fieldJson, parsed]
      rfl

theorem watched_cases {table type : String} (watched : tableEventTypes.lookup table = some type) :
    table = "vehicle_current_state" ∨ table = "anomalies" ∨ table = "zone_counts" := by
  by_contra other
  simp only [not_or] at other
  have absent : tableEventTypes.lookup table = none := by
    rw [List.lookup_eq_none_iff]
    simpa [tableEventTypes] using other
  rw [absent] at watched
  cases watched

section Tables

variable {values : OrdMap String Datum}

theorem buildPayload_currentState {vehicleId status battery : Datum} {batteryPct : PyValue}
    (vehicle : item values "vehicle_id" = .ok vehicleId)
    (state : item values "status" = .ok status)
    (level : item values "battery_pct" = .ok battery)
    (parsed : asFloat num battery = .ok batteryPct) :
    buildPayload num "vehicle_current_state" values =
      .ok [("vehicle_id", vehicleId.value), ("status", status.value),
        ("battery_pct", batteryPct)] := by
  simp only [buildPayload, if_true, vehicle, state, level, ok_bind, parsed]
  rfl

variable (num) in
theorem buildPayload_anomaly {vehicleId anomalyType detail detectedAt : Datum}
    (vehicle : item values "vehicle_id" = .ok vehicleId)
    (kind : item values "anomaly_type" = .ok anomalyType)
    (text : item values "detail" = .ok detail)
    (instant : item values "detected_at" = .ok detectedAt) :
    buildPayload num "anomalies" values =
      .ok [("vehicle_id", vehicleId.value), ("anomaly_type", anomalyType.value),
        ("detail", detail.value), ("detected_at", detectedAt.value)] := by
  have other : ¬"anomalies" = "vehicle_current_state" := by decide
  simp only [buildPayload, if_neg other, if_true, vehicle, kind, text, instant, ok_bind]
  rfl

theorem buildPayload_zoneCount {zoneId number : Datum} {entryCount : PyValue}
    (zone : item values "zone_id" = .ok zoneId)
    (count : item values "entry_count" = .ok number)
    (parsed : asInt num number = .ok entryCount) :
    buildPayload num "zone_counts" values =
      .ok [("zone_id", zoneId.value), ("entry_count", entryCount)] := by
  have notVehicle : ¬"zone_counts" = "vehicle_current_state" := by decide
  have notAnomaly : ¬"zone_counts" = "anomalies" := by decide
  simp only [buildPayload, if_neg notVehicle, if_neg notAnomaly, zone, count, ok_bind, parsed]
  rfl

end Tables

/-- The payload of a readable row of a watched table, as it is serialized. -/
theorem buildPayload_dumps {r : Relation} {t : Tuple} (describes : Describes num r t)
    {type : String} (watched : tableEventTypes.lookup r.name.text = some type) :
    ∃ payload, buildPayload num r.name.text (rowOf r.cached.2 t.data) = .ok payload ∧
      dumpsAll payload = .ok ((eventFields r.name.text).map fun f =>
        (f.1, fieldJson num f.2 (r.column t f.1))) := by
  have readable := describes.watched (by rw [watched]; rfl)
  have column := fun name kind (member : (name, kind) ∈ eventFields r.name.text) =>
    item_rowOf describes name (readable.named (name, kind) member)
  have text := fun name member => value_dumps num _ (readable.texts name member)
  -- one case for each branch of `_build_payload`
  rcases watched_cases watched with same | same | same
  · rw [same] at column text ⊢
    obtain ⟨batteryPct, parsed, dumped⟩ := asFloat_dumps (r.column t "battery_pct")
      fun s => readable.floats "battery_pct" s (by simp [eventFields, same])
    have built := buildPayload_currentState (column "vehicle_id" .text (by simp [eventFields]))
      (column "status" .text (by simp [eventFields]))
      (column "battery_pct" .float (by simp [eventFields])) parsed
    refine ⟨_, built, ?_⟩
    have vehicleId := text "vehicle_id" (by simp [eventFields])
    have status := text "status" (by simp [eventFields])
    simp only [dumpsAll, vehicleId, status, dumped, ok_bind]
    rfl
  · rw [same] at column text ⊢
    have built := buildPayload_anomaly num (column "vehicle_id" .text (by simp [eventFields]))
      (column "anomaly_type" .text (by simp [eventFields]))
      (column "detail" .text (by simp [eventFields]))
      (column "detected_at" .text (by simp [eventFields]))
    refine ⟨_, built, ?_⟩
    have vehicleId := text "vehicle_id" (by simp [eventFields])
    have anomalyType := text "anomaly_type" (by simp [eventFields])
    have detail := text "detail" (by simp [eventFields])
    have detectedAt := text "detected_at" (by simp [eventFields])
    simp only [dumpsAll, vehicleId, anomalyType, detail, detectedAt, ok_bind]
    rfl
  · rw [same] at column text ⊢
    obtain ⟨entryCount, parsed, dumped⟩ := asInt_dumps (r.column t "entry_count")
      fun s => readable.ints "entry_count" s (by simp [eventFields, same])
    have built := buildPayload_zoneCount (column "zone_id" .text (by simp [eventFields]))
      (column "entry_count" .int (by simp [eventFields])) parsed
    refine ⟨_, built, ?_⟩
    have zoneId := text "zone_id" (by simp [eventFields])
    simp only [dumpsAll, zoneId, dumped, ok_bind]
    rfl

end Payload

section Decoding

variable {num : Numerals} {publish : Message → Except PyError Unit}

/-- Publishing comes before the message counts as published. -/
def Consumer.publishing (publish : Message → Except PyError Unit) (c : Consumer) :
    Option Message → Except PyError Consumer
  | none => .ok c
  | some message => do
    publish message
    return { c with published := c.published ++ [message] }

/-- The message of a row of the named table, if the table is watched. -/
def translate (num : Numerals) (table : String) (values : OrdMap String Datum) :
    Except PyError (Option Message) :=
  match tableEventTypes.lookup table with
  | none => .ok none
  | some type => do
    let payload ← buildPayload num table values
    let serialized ← dumpsAll payload
    return some ⟨type, serialized⟩

theorem emit_cached (c : Consumer) (oid : Int) (table : String) (columns : List String)
    (values : OrdMap String Datum) (cached : c.relations.get? oid = some (table, columns)) :
    emit num publish c oid values = translate num table values >>= c.publishing publish := by
  simp only [emit, translate, Consumer.relation, cached, ok_bind]
  cases tableEventTypes.lookup table with
  | none => rfl
  | some type =>
    cases built : buildPayload num table values with
    | error e => rfl
    | ok payload =>
      simp only [ok_bind]
      cases dumpsAll payload <;> rfl

theorem translate_row {r : Relation} {t : Tuple} (describes : Describes num r t) :
    translate num r.name.text (rowOf r.cached.2 t.data) = .ok (rowEvent num r t) := by
  unfold translate rowEvent
  cases watched : tableEventTypes.lookup r.name.text with
  | none => rfl
  | some type =>
    obtain ⟨payload, built, dumped⟩ := buildPayload_dumps describes watched
    simp only [built, dumped, ok_bind]
    rfl

/-- A row change is read under the cached relation, past the old tuple of an update. -/
theorem decodePgoutput_row (c : Consumer) (m : PgMessage) (r : Relation) {oid : WireInt 4}
    {old : Option Tuple} {new : Tuple} (row : m.row? = some (oid, old, new))
    (cached : c.relations.get? oid.val = some r.cached)
    (newFits : new.data.length ≤ r.columns.length)
    (oldFits : ∀ t, old = some t → t.data.length ≤ r.columns.length) :
    decodePgoutput num publish c m.encode =
      emit num publish c oid.val (rowOf r.cached.2 new.data) := by
  obtain ⟨reader, read, _⟩ := readChange_row c m r row cached newFits oldFits
  rw [decodePgoutput_change num publish c m row, read]
  rfl

/-- A row change of a relation that is not cached is not read at all. -/
theorem decodePgoutput_unknown (c : Consumer) (m : PgMessage) {oid : WireInt 4}
    {old : Option Tuple} {new : Tuple} (row : m.row? = some (oid, old, new))
    (unknown : c.relations.get? oid.val = none) :
    decodePgoutput num publish c m.encode = .error .keyError := by
  rw [decodePgoutput_change num publish c m row, readChange_unknown c m row unknown]
  rfl

/-- A message that is no row change publishes nothing, and cannot fail. -/
theorem decodePgoutput_other (c : Consumer) (m : PgMessage) (other : m.row? = none) :
    decodePgoutput num publish c m.encode = .ok (c.remember m) := by
  cases m with
  | relation r => exact decodePgoutput_relation num publish c r
  | insert | update => cases other
  | silent kind body =>
    obtain ⟨r₁, tag, _⟩ :=
      Reader.char_unread (Reader.unread_new (PgMessage.encode (.silent kind body)))
    have notRelation : ¬([kind.tag] : List UInt8) = [82] := by cases kind <;> decide
    have notInsert : ¬([kind.tag] : List UInt8) = [73] := by cases kind <;> decide
    have notUpdate : ¬([kind.tag] : List UInt8) = [85] := by cases kind <;> decide
    simp only [decodePgoutput, tag, if_neg notRelation, if_neg notInsert, if_neg notUpdate]
    rfl

/-- One message: the cache follows the Relation messages, and the row changes are
published. -/
theorem decodePgoutput_encode (c : Consumer) (sent : List PgMessage) (m : PgMessage)
    (cached : Cached c sent) (described : Described num sent m) :
    decodePgoutput num publish c m.encode =
      (c.remember m).publishing publish (event num sent m) := by
  cases m with
  | relation | silent => exact decodePgoutput_other c _ rfl
  | insert oid new =>
    obtain ⟨r, latest, describes⟩ := described
    -- the cache holds the relation that the event is defined by
    have relation : c.relations.get? oid.val = some r.cached := by rw [cached, latest]; rfl
    rw [decodePgoutput_row c _ r rfl relation describes.complete.le (by rintro t ⟨⟩),
      emit_cached c oid.val _ _ _ relation, event, latest]
    exact congrArg (· >>= _) (translate_row describes)
  | update oid old new =>
    obtain ⟨r, latest, describes, oldFits⟩ := described
    have relation : c.relations.get? oid.val = some r.cached := by rw [cached, latest]; rfl
    have fits : ∀ t, old.map Prod.snd = some t → t.data.length ≤ r.columns.length := by
      intro t same
      obtain ⟨⟨kind, t'⟩, present, rfl⟩ := Option.map_eq_some_iff.mp same
      exact oldFits kind t' present
    rw [decodePgoutput_row c _ r rfl relation describes.complete.le fits,
      emit_cached c oid.val _ _ _ relation, event, latest]
    exact congrArg (· >>= _) (translate_row describes)

/-- The payloads fed one after the other, publishing never failing. -/
def decodeAll (num : Numerals) (c : Consumer) (payloads : List (List UInt8)) :
    Except PyError Consumer :=
  payloads.foldlM (decodePgoutput num fun _ => .ok ()) c

theorem publishing_ok {c c' : Consumer} {e : Option Message}
    (done : c.publishing publish e = .ok c') :
    c' = { c with published := c.published ++ e.toList } := by
  cases e with
  | none =>
    cases done
    simp
  | some message =>
    simp only [Consumer.publishing] at done
    cases sent : publish message with
    | error =>
      rw [sent] at done
      cases done
    | ok =>
      rw [sent] at done
      cases done
      rfl

theorem remember_publishing (c : Consumer) (sent : List PgMessage) (m : PgMessage)
    (e : Option Message) (cached : Cached c sent) :
    ∃ c', (c.remember m).publishing (fun _ => .ok ()) e = .ok c' ∧
      c'.published = c.published ++ e.toList ∧ Cached c' (sent ++ [m]) := by
  cases e with
  | none => exact ⟨c.remember m, rfl, by simp, cached.remember m⟩
  | some message => exact ⟨_, rfl, by simp, cached.remember m⟩

theorem decodeAll_encode (sent msgs : List PgMessage) (c : Consumer) (cached : Cached c sent)
    (described : DescribedAll num sent msgs) :
    ∃ c', decodeAll num c (msgs.map PgMessage.encode) = .ok c' ∧
      c'.published = c.published ++ events num sent msgs ∧ Cached c' (sent ++ msgs) := by
  -- along the stream, with the cache in step with the messages already sent
  induction msgs generalizing sent c with
  | nil => exact ⟨c, rfl, by simp [events], by simpa using cached⟩
  | cons m msgs ih =>
    obtain ⟨here, later⟩ := described
    obtain ⟨c₁, decoded, published, cached₁⟩ :=
      remember_publishing c sent m (event num sent m) cached
    obtain ⟨c₂, rest, published₂, cached₂⟩ := ih (sent ++ [m]) c₁ cached₁ later
    refine ⟨c₂, ?_, ?_, by simpa using cached₂⟩
    · rw [List.map_cons, decodeAll, List.foldlM_cons, decodePgoutput_encode c sent m cached here,
        decoded, ok_bind]
      exact rest
    · rw [published₂, published, events, List.append_assoc]

theorem describedAll_split (sent msgs : List PgMessage) (m : PgMessage) (rest : List PgMessage)
    (described : DescribedAll num sent (msgs ++ m :: rest)) :
    DescribedAll num sent msgs ∧ Described num (sent ++ msgs) m := by
  induction msgs generalizing sent with
  | nil => exact ⟨trivial, by simpa using described.1⟩
  | cons first msgs ih =>
    obtain ⟨earlier, here⟩ := ih (sent ++ [first]) described.2
    exact ⟨⟨described.1, earlier⟩, by simpa using here⟩

/-- The published messages are the events of the stream, in order, and the cache holds the
latest relations. Each message adds its own event at most, and only a Relation message
touches the cache. -/
theorem decodeAll_events (num : Numerals) (msgs : List PgMessage)
    (described : DescribedAll num [] msgs) :
    (∃ c, decodeAll num .new (msgs.map PgMessage.encode) = .ok c ∧
      c.published = events num [] msgs ∧
      ∀ oid, c.relations.get? oid = (latestRelation msgs oid).map Relation.cached) ∧
    ∀ sent m rest, msgs = sent ++ m :: rest →
      ∃ c c', decodeAll num .new (sent.map PgMessage.encode) = .ok c ∧
        decodePgoutput num (fun _ => .ok ()) c m.encode = .ok c' ∧
        c'.published = c.published ++ (event num sent m).toList ∧
        ((∀ r, m ≠ .relation r) → c'.relations = c.relations) := by
  constructor
  · exact decodeAll_encode [] msgs .new cached_new described
  · rintro sent m rest rfl
    obtain ⟨earlier, here⟩ := describedAll_split [] sent m rest described
    obtain ⟨c, decoded, _, cached⟩ := decodeAll_encode [] sent .new cached_new earlier
    obtain ⟨c', step, published, _⟩ := remember_publishing c sent m (event num sent m) cached
    refine ⟨c, c', decoded, ?_, published, ?_⟩
    · rw [decodePgoutput_encode c sent m cached here]
      exact step
    -- what is published does not touch the cache
    · intro other
      have kept : (c.remember m).relations = c.relations := by
        cases m with
        | relation r => exact (other r rfl).elim
        | insert | update | silent => rfl
      rw [publishing_ok step]
      exact kept

def zoneIdColumn : Column := ⟨1, ⟨"zone_id", by decide⟩, ⟨1043, by decide⟩, ⟨68, by decide⟩⟩

def entryCountColumn : Column :=
  ⟨0, ⟨"entry_count", by decide⟩, ⟨20, by decide⟩, ⟨-1, inRange_noModifier⟩⟩

def zoneCountsRelation : Relation :=
  ⟨⟨16391, by decide⟩, ⟨"public", clean_public⟩, ⟨"zone_counts", by decide⟩, 100,
    [zoneIdColumn, entryCountColumn], by decide⟩

/-- The same table once its columns have been swapped. -/
def swappedRelation : Relation :=
  { zoneCountsRelation with columns := [entryCountColumn, zoneIdColumn], columns_fit := by decide }

def digit : Numerals where
  float _ := .error .valueError
  int text := if text = "1" then .ok 1 else if text = "2" then .ok 2 else .error .valueError

theorem firstCount_fits : 2 * [Datum.text "charging_1", .text "1"].length < 256 ^ 2 := by decide

theorem firstCount_texts_fit :
    ∀ d ∈ [Datum.text "charging_1", .text "1"], 2 * d.size < 256 ^ 4 := by
  decide

/-- A counter inserted, and updated after the columns of its table were swapped. -/
def zoneCountStream : List PgMessage :=
  [.silent .begin [], .relation zoneCountsRelation,
    .insert zoneCountsRelation.oid
      ⟨[.text "charging_1", .text "1"], firstCount_fits, firstCount_texts_fit⟩,
    .silent .commit [], .relation swappedRelation,
    .update swappedRelation.oid (some (.key, ⟨[.null, .text "charging_1"], by decide, by decide⟩))
      ⟨[.text "2", .text "charging_1"], by decide, by decide⟩]

theorem zoneCountRow_describes (r : Relation) (t : Tuple) (text : String) (n : Int)
    (table : r.name.text = "zone_counts") (distinct : r.columnNames.Nodup)
    (complete : t.data.length = r.columns.length)
    (columns : r.columnNames.Perm ["zone_id", "entry_count"])
    (zone : r.column t "zone_id" ≠ .unchanged) (number : r.column t "entry_count" = .text text)
    (parsed : digit.int text = .ok n) : Describes digit r t := by
  have fields : eventFields r.name.text = [("zone_id", .text), ("entry_count", .int)] := by
    rw [table]
    rfl
  refine ⟨distinct, complete, fun _ => ⟨?_, ?_, ?_, ?_⟩⟩
  -- the two event fields are the two columns, in whichever order the table has them
  · intro f member
    rw [columns.mem_iff]
    rw [fields] at member
    simp at member
    rcases member with rfl | rfl <;> simp
  · intro name member
    have same : name = "zone_id" := by simpa [fields] using member
    exact same ▸ zone
  -- no field of this event is a float
  · intro name s member
    simp [fields] at member
  · intro name s member value
    have same : name = "entry_count" := by simpa [fields] using member
    rw [same, number] at value
    cases value
    exact ⟨n, parsed⟩

theorem zoneCountStream_described : DescribedAll digit [] zoneCountStream := by
  refine ⟨trivial, trivial, ⟨zoneCountsRelation, rfl, ?_⟩, trivial, trivial,
    ⟨swappedRelation, rfl, ?_, ?_⟩, trivial⟩
  · exact zoneCountRow_describes _ _ "1" 1 rfl (by decide) rfl (by decide) (by decide) rfl rfl
  · exact zoneCountRow_describes _ _ "2" 2 rfl (by decide) rfl (by decide) (by decide) rfl rfl
  · rintro kind t ⟨rfl, rfl⟩
    decide

theorem decodeAll_events_zoneCount :
    (∃ c, decodeAll digit .new (zoneCountStream.map PgMessage.encode) = .ok c ∧
      c.published = events digit [] zoneCountStream ∧
      ∀ oid, c.relations.get? oid =
        (latestRelation zoneCountStream oid).map Relation.cached) ∧
    ∀ sent m rest, zoneCountStream = sent ++ m :: rest →
      ∃ c c', decodeAll digit .new (sent.map PgMessage.encode) = .ok c ∧
        decodePgoutput digit (fun _ => .ok ()) c m.encode = .ok c' ∧
        c'.published = c.published ++ (event digit sent m).toList ∧
        ((∀ r, m ≠ .relation r) → c'.relations = c.relations) :=
  decodeAll_events digit zoneCountStream zoneCountStream_described

example : events digit [] zoneCountStream =
    [⟨zoneCountChanged, [("zone_id", .string "charging_1"), ("entry_count", .integer 1)]⟩,
      ⟨zoneCountChanged, [("zone_id", .string "charging_1"), ("entry_count", .integer 2)]⟩] := by
  decide

end Decoding

end FleetTelemetry.Cdc
