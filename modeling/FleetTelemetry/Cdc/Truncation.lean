import FleetTelemetry.Cdc.Decoding
import FleetTelemetry.Cdc.ShortReads

/-!
# Truncated row changes

What the decoder makes of a row change that breaks off: which breaks are noticed, and which
let a row through that was never written.
-/

namespace FleetTelemetry.Cdc

open Foundations Foundations.Wire

section Payload

variable {num : Numerals}

theorem item_ok {r : Relation} {t : Tuple} (distinct : r.columnNames.Nodup)
    (complete : t.data.length = r.columns.length) {name : String} {d : Datum}
    (found : item (rowOf r.cached.2 t.data) name = .ok d) :
    name ∈ r.columnNames ∧ r.column t name = d := by
  -- a column that is there has been sent, under a name of its own
  have long : r.columnNames.length ≤ t.data.length := by
    rw [Relation.columnNames, List.length_map, complete]
  have stored : (rowOf r.cached.2 t.data).get? name = (r.columnNames.zip t.data).lookup name :=
    get?_rowOf distinct long name
  rw [item, stored] at found
  cases value : (r.columnNames.zip t.data).lookup name with
  | none =>
    rw [value] at found
    cases found
  | some d' =>
    rw [value] at found
    cases found
    refine ⟨(List.of_mem_zip (OrdMap.mem_of_lookup value)).1, ?_⟩
    rw [Relation.column, value, Option.getD_some]

theorem dumpsAll_ok {fields : List (String × PyValue)} {serialized : List (String × Json)}
    (dumped : dumpsAll fields = .ok serialized) : ∀ f ∈ fields, ∃ j, f.2.dumps = .ok j := by
  induction fields generalizing serialized with
  | nil => simp
  | cons f fields ih =>
    obtain ⟨j, first, rest⟩ := except_bind_ok dumped
    obtain ⟨others, later, _⟩ := except_bind_ok rest
    rw [List.forall_mem_cons]
    exact ⟨⟨j, first⟩, ih later⟩

/-- A column can be read as the field it is for. -/
def FieldKind.Reads (num : Numerals) : FieldKind → Datum → Prop
  | .text, d => d ≠ .unchanged
  | .float, d => ∀ s, d = .text s → ∃ x, num.float s = .ok x
  | .int, d => ∀ s, d = .text s → ∃ n, num.int s = .ok n

theorem reads_text {d : Datum} (dumped : ∃ j, d.value.dumps = .ok j) :
    FieldKind.text.Reads num d := by
  rintro rfl
  obtain ⟨j, failed⟩ := dumped
  cases failed

theorem reads_float {d : Datum} {v : PyValue} (parsed : asFloat num d = .ok v) :
    FieldKind.float.Reads num d := by
  rintro s rfl
  rw [asFloat] at parsed
  cases value : num.float s with
  | error e =>
    rw [value] at parsed
    cases parsed
  | ok x => exact ⟨x, rfl⟩

theorem reads_int {d : Datum} {v : PyValue} (parsed : asInt num d = .ok v) :
    FieldKind.int.Reads num d := by
  rintro s rfl
  rw [asInt] at parsed
  cases value : num.int s with
  | error e =>
    rw [value] at parsed
    cases parsed
  | ok n => exact ⟨n, rfl⟩

theorem readable_of_fields {r : Relation} {t : Tuple}
    (each : ∀ f ∈ eventFields r.name.text,
      f.1 ∈ r.columnNames ∧ f.2.Reads num (r.column t f.1)) : Readable num r t where
  named f member := (each f member).1
  texts name member := (each (name, .text) member).2
  floats name s member value := (each (name, .float) member).2 s value
  ints name s member value := (each (name, .int) member).2 s value

/-- A row whose payload is built and serialized can be read. -/
theorem readable_of_dumps {r : Relation} {t : Tuple} (distinct : r.columnNames.Nodup)
    (complete : t.data.length = r.columns.length) {type : String}
    (watched : tableEventTypes.lookup r.name.text = some type)
    {payload : List (String × PyValue)} {serialized : List (String × Json)}
    (built : buildPayload num r.name.text (rowOf r.cached.2 t.data) = .ok payload)
    (dumped : dumpsAll payload = .ok serialized) : Readable num r t := by
  have field : ∀ {name d} (kind : FieldKind), item (rowOf r.cached.2 t.data) name = .ok d →
      kind.Reads num d → name ∈ r.columnNames ∧ kind.Reads num (r.column t name) := by
    intro name d kind found reads
    obtain ⟨named, value⟩ := item_ok distinct complete found
    exact ⟨named, value.symm ▸ reads⟩
  have dumps := dumpsAll_ok dumped
  apply readable_of_fields
  -- one case for each branch of `_build_payload`
  rcases watched_cases watched with same | same | same
  · rw [same] at built ⊢
    simp only [buildPayload, if_true] at built
    obtain ⟨vehicleId, vehicle, built⟩ := except_bind_ok built
    obtain ⟨status, state, built⟩ := except_bind_ok built
    obtain ⟨battery, level, built⟩ := except_bind_ok built
    obtain ⟨batteryPct, parsed, built⟩ := except_bind_ok built
    cases built
    simp only [eventFields, if_true, List.forall_mem_cons] at dumps ⊢
    exact ⟨field .text vehicle (reads_text dumps.1), field .text state (reads_text dumps.2.1),
      field .float level (reads_float parsed), fun _ none => by cases none⟩
  · have other : ¬"anomalies" = "vehicle_current_state" := by decide
    rw [same] at built ⊢
    simp only [buildPayload, if_neg other, if_true] at built
    obtain ⟨vehicleId, vehicle, built⟩ := except_bind_ok built
    obtain ⟨anomalyType, kind, built⟩ := except_bind_ok built
    obtain ⟨detail, text, built⟩ := except_bind_ok built
    obtain ⟨detectedAt, instant, built⟩ := except_bind_ok built
    cases built
    simp only [eventFields, if_neg other, if_true, List.forall_mem_cons] at dumps ⊢
    exact ⟨field .text vehicle (reads_text dumps.1), field .text kind (reads_text dumps.2.1),
      field .text text (reads_text dumps.2.2.1), field .text instant (reads_text dumps.2.2.2.1),
      fun _ none => by cases none⟩
  · have other : ¬"zone_counts" = "vehicle_current_state" := by decide
    have other' : ¬"zone_counts" = "anomalies" := by decide
    rw [same] at built ⊢
    simp only [buildPayload, if_neg other, if_neg other'] at built
    obtain ⟨zoneId, zone, built⟩ := except_bind_ok built
    obtain ⟨number, count, built⟩ := except_bind_ok built
    obtain ⟨entryCount, parsed, built⟩ := except_bind_ok built
    cases built
    simp only [eventFields, if_neg other, if_neg other', List.forall_mem_cons] at dumps ⊢
    exact ⟨field .text zone (reads_text dumps.1), field .int count (reads_int parsed),
      fun _ none => by cases none⟩

end Payload

section Breaks

variable {num : Numerals}

/-- With a Redis that takes every message: the payload raises, or changes nothing. -/
def Ignored (num : Numerals) (c : Consumer) (payload : List UInt8) : Prop :=
  (∃ e, decodePgoutput num (fun _ => .ok ()) c payload = .error e) ∨
    decodePgoutput num (fun _ => .ok ()) c payload = .ok c

/-- The tuple once the lost bytes, the last of its last column's text, are gone. -/
def CutTo (t cut : Tuple) (lost : List UInt8) : Prop :=
  ∃ init s text, t.data = init ++ [.text s] ∧ cut.data = init ++ [.text text] ∧
    utf8 s = utf8 text ++ lost

theorem decodePgoutput_nil (num : Numerals) (publish : Message → Except PyError Unit)
    (c : Consumer) : decodePgoutput num publish c [] = .ok c := rfl

/-- A row change that breaks off is still no Relation message. -/
theorem decodePgoutput_break (publish : Message → Except PyError Unit) (c : Consumer)
    (m : PgMessage) {oid : WireInt 4} {old : Option Tuple} {new : Tuple}
    (row : m.row? = some (oid, old, new)) {p lost : List UInt8} (broken : p ++ lost = m.encode) :
    decodePgoutput num publish c p = readChange c p >>= emitChange num publish c := by
  rw [decodePgoutput_eq, if_neg]
  intro relation
  -- its first byte, if there is one, is that of the whole message
  cases p with
  | nil => cases relation
  | cons b p =>
    obtain ⟨r₁, char, _⟩ := Reader.char_unread (Reader.unread_new (b :: p))
    rw [char, List.singleton_inj] at relation
    subst relation
    cases m with
    | relation | silent => cases row
    | insert oid new => cases (List.cons.inj broken).1
    | update oid old' new =>
      cases old' with
      | none => cases (List.cons.inj broken).1
      | some before => cases (List.cons.inj broken).1

theorem lastText_iff {data : List Datum} {s : String} :
    lastText data = some s ↔ ∃ init, data = init ++ [.text s] := by
  constructor
  · intro last
    unfold lastText at last
    split at last
    next final =>
      cases last
      exact ⟨data.dropLast, (List.dropLast_append_getLast? _ final).symm⟩
    · cases last
  · rintro ⟨init, rfl⟩
    rw [lastText, List.getLast?_concat]

theorem CutTo.length {t cut : Tuple} {lost : List UInt8} (cutTo : CutTo t cut lost) :
    cut.data.length = t.data.length := by
  obtain ⟨init, s, text, whole, kept, _⟩ := cutTo
  rw [whole, kept, List.length_append, List.length_append]
  rfl

theorem CutTo.lastText {t cut : Tuple} {lost : List UInt8} (cutTo : CutTo t cut lost) :
    ∃ s text, Cdc.lastText t.data = some s ∧ utf8 s = utf8 text ++ lost ∧
      cut.data = withLast t.data text := by
  obtain ⟨init, s, text, whole, kept, tail⟩ := cutTo
  refine ⟨s, text, lastText_iff.mpr ⟨init, whole⟩, tail, ?_⟩
  rw [kept, whole, withLast, List.dropLast_concat]

/-- What is left of a tuple fits where the tuple did. -/
theorem exists_cutTo {t : Tuple} {s text : String} {lost : List UInt8}
    (last : Cdc.lastText t.data = some s) (tail : utf8 text ++ lost = utf8 s) :
    ∃ cut : Tuple, cut.data = withLast t.data text ∧ CutTo t cut lost := by
  obtain ⟨init, whole⟩ := lastText_iff.mp last
  have kept : withLast t.data text = init ++ [.text text] := by
    rw [whole, withLast, List.dropLast_concat]
  have counted := t.data_fit
  have sized := t.texts_fit
  rw [whole] at counted sized
  -- what is cut off makes the text no longer, so the counts still fit
  have fewer : (utf8 text).length ≤ (utf8 s).length := by
    rw [← tail, List.length_append]
    exact Nat.le_add_right _ _
  refine ⟨⟨withLast t.data text, ?_, ?_⟩, rfl, init, s, text, whole, kept, tail.symm⟩
  · rw [kept]
    simpa using counted
  · rw [kept]
    intro d member
    rcases List.mem_append.mp member with early | final
    · exact sized d (List.mem_append_left _ early)
    · have fits := sized (.text s) (by simp)
      obtain rfl := List.mem_singleton.mp final
      simp only [Datum.size] at fits ⊢
      omega

theorem CutTo.unique {t cut cut' : Tuple} {lost : List UInt8} (left : CutTo t cut lost)
    (right : CutTo t cut' lost) : cut = cut' := by
  obtain ⟨s, text, last, tail, data⟩ := left.lastText
  obtain ⟨s', text', last', tail', data'⟩ := right.lastText
  rw [last, Option.some.injEq] at last'
  subst last'
  rw [tail] at tail'
  have bytes := List.append_cancel_right tail'
  -- a text is determined by its bytes
  have same : text = text' := by
    have decoded := decodeUtf8_utf8 text
    rw [bytes, decodeUtf8_utf8] at decoded
    exact (Option.some.inj decoded).symm
  subst same
  cases cut
  cases cut'
  simp only at data data'
  subst data data'
  rfl

section Emitting

variable {c : Consumer} {r : Relation} {oid : WireInt 4} {t : Tuple}

theorem emit_readable (cached : c.relations.get? oid.val = some r.cached)
    (watched : (tableEventTypes.lookup r.name.text).isSome = true)
    (describes : Describes num r t) :
    ∃ message, emit num (fun _ => .ok ()) c oid.val (rowOf r.cached.2 t.data) =
      .ok { c with published := c.published ++ [message] } := by
  obtain ⟨type, known⟩ := Option.isSome_iff_exists.mp watched
  rw [emit_cached c oid.val _ _ _ cached, translate_row describes, rowEvent, known]
  exact ⟨_, rfl⟩

theorem emit_unreadable (cached : c.relations.get? oid.val = some r.cached)
    (watched : (tableEventTypes.lookup r.name.text).isSome = true)
    (distinct : r.columnNames.Nodup) (complete : t.data.length = r.columns.length)
    (unreadable : ¬Readable num r t) :
    ∃ e, emit num (fun _ => .ok ()) c oid.val (rowOf r.cached.2 t.data) = .error e := by
  obtain ⟨type, known⟩ := Option.isSome_iff_exists.mp watched
  rw [emit_cached c oid.val _ _ _ cached, translate, known]
  cases built : buildPayload num r.name.text (rowOf r.cached.2 t.data) with
  | error e => exact ⟨e, rfl⟩
  | ok payload =>
    simp only [ok_bind]
    cases dumped : dumpsAll payload with
    | error e => exact ⟨e, rfl⟩
    | ok serialized =>
      exact absurd (readable_of_dumps distinct complete known built dumped) unreadable

/-- What `_emit` does with a row of a watched table. -/
theorem emit_iff (cached : c.relations.get? oid.val = some r.cached)
    (watched : (tableEventTypes.lookup r.name.text).isSome = true)
    (distinct : r.columnNames.Nodup) (complete : t.data.length = r.columns.length) :
    (∃ e, emit num (fun _ => .ok ()) c oid.val (rowOf r.cached.2 t.data) = .error e) ∨
        emit num (fun _ => .ok ()) c oid.val (rowOf r.cached.2 t.data) = .ok c ↔
      ¬Readable num r t := by
  by_cases readable : Readable num r t
  · obtain ⟨message, published⟩ :=
      emit_readable cached watched ⟨distinct, complete, fun _ => readable⟩
    rw [published]
    -- a consumer that has published one message more is not the one before
    refine iff_of_false ?_ fun unreadable => unreadable readable
    rintro (⟨e, raised⟩ | kept)
    · cases raised
    · have grown := congrArg Consumer.published (Except.ok.inj kept)
      simp at grown
  · exact iff_of_true (.inl (emit_unreadable cached watched distinct complete readable)) readable

end Emitting

theorem length_lt_encode (m : PgMessage) {oid : WireInt 4} {old : Option Tuple} {new : Tuple}
    (row : m.row? = some (oid, old, new)) : new.encode.length < m.encode.length := by
  cases m with
  | relation | silent => cases row
  | insert oid new =>
    cases row
    simp only [PgMessage.encode, List.length_cons, List.length_append]
    omega
  | update oid old' new =>
    cases row
    cases old' with
    | none =>
      simp only [PgMessage.encode, List.length_cons, List.length_append]
      omega
    | some before =>
      simp only [PgMessage.encode, List.length_cons, List.length_append]
      omega

/-- More than the text of the last column is lost. -/
theorem not_cutTo {t : Tuple} {lost : List UInt8}
    (beyond : ∀ s, lastText t.data = some s → (utf8 s).length < lost.length) (cut : Tuple) :
    ¬CutTo t cut lost := by
  intro cutTo
  obtain ⟨s, text, last, tail, _⟩ := cutTo.lastText
  have length := beyond s last
  rw [tail, List.length_append] at length
  omega

/-- A row change that breaks off is ignored or refused, unless the break is in the text of
its last column and what is left of the row can still be read. -/
theorem ignored_iff (num : Numerals) (c : Consumer) (m : PgMessage) (r : Relation)
    {oid : WireInt 4} {old : Option Tuple} {new : Tuple} (row : m.row? = some (oid, old, new))
    (cached : c.relations.get? oid.val = some r.cached)
    (watched : (tableEventTypes.lookup r.name.text).isSome = true)
    (distinct : r.columnNames.Nodup) (complete : new.data.length = r.columns.length)
    (oldFits : ∀ t, old = some t → t.data.length ≤ r.columns.length)
    {p lost : List UInt8} (broken : p ++ lost = m.encode) (short : lost ≠ []) :
    Ignored num c p ↔ ¬∃ cut, CutTo new cut lost ∧ Readable num r cut := by
  by_cases begun : p = []
  · subst begun
    refine iff_of_true (.inr (decodePgoutput_nil num _ c)) ?_
    rintro ⟨cut, cutTo, _⟩
    refine not_cutTo (fun s last => ?_) cut cutTo
    have whole := length_lt_encode m row
    rw [List.nil_append] at broken
    rw [broken]
    exact Nat.lt_trans (length_lastText_encode last) whole
  · rw [Ignored, decodePgoutput_break _ c m row broken]
    rcases readChange_short m row cached complete.le oldFits broken short begun with
      ⟨⟨e, raised⟩, beyond⟩ | ⟨s, kept, reader, last, tail, _, read⟩
    · rw [raised]
      exact iff_of_true (.inl ⟨e, rfl⟩) fun ⟨cut, cutTo, _⟩ => not_cutTo beyond cut cutTo
    · cases decoded : decodeUtf8 kept with
      | none =>
        -- what is left is no text
        have refused : Bytes.decode kept = .error .unicodeDecodeError := by
          rw [Bytes.decode, decoded]
        rw [read, refused]
        refine iff_of_true (.inl ⟨_, rfl⟩) ?_
        rintro ⟨cut, cutTo, _⟩
        obtain ⟨s', text, last', tail', _⟩ := cutTo.lastText
        rw [last, Option.some.injEq] at last'
        subst last'
        rw [← tail] at tail'
        rw [List.append_cancel_right tail', decodeUtf8_utf8] at decoded
        cases decoded
      | some text =>
        obtain rfl := utf8_of_decodeUtf8 decoded
        obtain ⟨cut, data, cutTo⟩ := exists_cutTo last tail
        have emitted : (readChange c p >>= emitChange num (fun _ => .ok ()) c) =
            emit num (fun _ => .ok ()) c oid.val (rowOf r.cached.2 cut.data) := by
          rw [read, Bytes.decode, decoded, data]
          rfl
        have same : cut.data.length = r.columns.length := by
          rw [← complete, cutTo.length]
        rw [emitted, emit_iff cached watched distinct same]
        constructor
        · rintro unreadable ⟨cut', cutTo', readable⟩
          exact unreadable (cutTo.unique cutTo' ▸ readable)
        · intro none readable
          exact none ⟨cut, cutTo, readable⟩

end Breaks

def dozen : Numerals where
  float _ := .error .valueError
  int text := if text = "12" then .ok 12 else if text = "1" then .ok 1 else .error .valueError

def zoneCountsCached : Consumer :=
  ⟨OrdMap.empty.set zoneCountsRelation.oid.val zoneCountsRelation.cached, 0, []⟩

/-- The twelfth entry of a zone. -/
def twelfthEntry : Tuple := ⟨[.text "charging_1", .text "12"], by decide, by decide⟩

def twelfthInsert : List UInt8 := (PgMessage.insert zoneCountsRelation.oid twelfthEntry).encode

/-- Without its last byte the twelfth entry is published as the first. -/
theorem truncated_published :
    (decodePgoutput dozen (fun _ => .ok ()) zoneCountsCached twelfthInsert.dropLast).toOption.map
        Consumer.published =
      some [⟨zoneCountChanged, [("zone_id", .string "charging_1"), ("entry_count", .integer 1)]⟩] ∧
    ¬Ignored dozen zoneCountsCached twelfthInsert.dropLast := by
  have published : (decodePgoutput dozen (fun _ => .ok ()) zoneCountsCached
      twelfthInsert.dropLast).toOption.map Consumer.published =
      some [⟨zoneCountChanged,
        [("zone_id", .string "charging_1"), ("entry_count", .integer 1)]⟩] := by
    decide
  refine ⟨published, ?_⟩
  -- ignored means that it raised or that it published nothing, and it did neither
  rintro (⟨e, raised⟩ | kept)
  · rw [raised] at published
    cases published
  · rw [kept] at published
    cases published

theorem ignored_iff_length : Ignored dozen zoneCountsCached
    (twelfthInsert.take (twelfthInsert.length - 3)) := by
  refine (ignored_iff dozen zoneCountsCached (.insert zoneCountsRelation.oid twelfthEntry)
    zoneCountsRelation rfl (OrdMap.get?_set_self ..) (by decide) (by decide) (by decide)
    (by rintro t ⟨⟩) (List.take_append_drop ..) (by decide)).mpr ?_
  rintro ⟨cut, cutTo, _⟩
  refine not_cutTo (fun s last => ?_) cut cutTo
  cases last
  decide

end FleetTelemetry.Cdc
