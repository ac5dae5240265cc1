import FleetTelemetry.Cdc.Session

/-!
# Receiving a CopyData message

What `onCopyMessage` does with each of the two messages the server sends, and with the
message of a row.
-/

namespace FleetTelemetry.Cdc

open Foundations Foundations.Wire

variable {num : Numerals} {publish : Message → Except PyError Unit}

theorem unpackFrom_xlogData (walStart walEnd clock : WireInt 8) (payload : List UInt8) :
    Bytes.unpackFrom 8 (CopyData.xlogData walStart walEnd clock payload).encode 9 =
      .ok walEnd.val := by
  have start : (119 :: walStart.encode).length = 9 := by simp [WireInt.encode]
  have field := Reader.unpackFrom_field (119 :: walStart.encode) walEnd (clock.encode ++ payload)
  rwa [start] at field

theorem onCopyMessage_xlogData (c : Consumer) (walStart walEnd clock : WireInt 8)
    (payload : List UInt8) :
    onCopyMessage num publish c (CopyData.xlogData walStart walEnd clock payload).encode =
      match decodePgoutput num publish { c with lastLsn := max c.lastLsn walEnd.val } payload with
      | .error e => ({ c with lastLsn := max c.lastLsn walEnd.val }, .error e)
      | .ok c' => (c', .ok false) := by
  -- the end of the WAL is read in place, and the payload is all behind the header
  have position := unpackFrom_xlogData walStart walEnd clock payload
  have body : (CopyData.xlogData walStart walEnd clock payload).encode.drop 25 = payload := by
    have header : ((119 :: walStart.encode) ++ (walEnd.encode ++ clock.encode)).length = 25 := by
      simp [WireInt.encode]
    rw [← header]
    simp [CopyData.encode]
  have tag : (CopyData.xlogData walStart walEnd clock payload).encode.take 1 = [119] := rfl
  cases decoded : decodePgoutput num publish { c with lastLsn := max c.lastLsn walEnd.val }
    payload with
  | error => simp only [onCopyMessage, tag, if_true, position, body, decoded]
  | ok => simp only [onCopyMessage, tag, if_true, position, body, decoded]

theorem onCopyMessage_keepalive (c : Consumer) (walEnd clock : WireInt 8) (reply : UInt8) :
    onCopyMessage num publish c (CopyData.keepalive walEnd clock reply).encode =
      ({ c with lastLsn := max c.lastLsn walEnd.val }, .ok (decide (reply ≠ 0))) := by
  -- long enough for the flag, which is its last byte
  have size : (CopyData.keepalive walEnd clock reply).encode.length = 18 := by
    simp [CopyData.encode, WireInt.encode]
  have position : Bytes.unpackFrom 8 (CopyData.keepalive walEnd clock reply).encode 1 =
      .ok walEnd.val :=
    Reader.unpackFrom_field [107] walEnd (clock.encode ++ [reply])
  have flag : (CopyData.keepalive walEnd clock reply).encode[17]? = some reply := by
    have header : ([107] ++ (walEnd.encode ++ clock.encode)).length = 17 := by
      simp [WireInt.encode]
    have split : (CopyData.keepalive walEnd clock reply).encode =
        ([107] ++ (walEnd.encode ++ clock.encode)) ++ [reply] := by
      simp [CopyData.encode]
    rw [split, ← header, List.getElem?_append_right (Nat.le_refl _)]
    simp
  have tag : (CopyData.keepalive walEnd clock reply).encode.take 1 = [107] := rfl
  have short : ¬(CopyData.keepalive walEnd clock reply).encode.length < 18 := by omega
  have other : ¬([107] : List UInt8) = [119] := by decide
  simp only [onCopyMessage, tag, if_neg other, if_true, if_neg short, position, flag]

/-- The message of a row, as its transaction means it. -/
def Row.translation (num : Numerals) (row : Row) : Except PyError (Option Message) :=
  translate num row.table.name.text (rowOf row.table.cached.2 row.new.data)

def Row.watched (row : Row) : Prop := (tableEventTypes.lookup row.table.name.text).isSome = true

theorem translation_watched {row : Row} {e : Option Message} (watched : row.watched)
    (translated : row.translation num = .ok e) : ∃ message, e = some message := by
  unfold Row.translation translate at translated
  -- a watched table has an event type, so nothing but an exception keeps it from one
  obtain ⟨type, known⟩ := Option.isSome_iff_exists.mp watched
  rw [known] at translated
  simp only at translated
  cases built : buildPayload num row.table.name.text (rowOf row.table.cached.2 row.new.data) with
  | error =>
    rw [built] at translated
    cases translated
  | ok payload =>
    rw [built, ok_bind] at translated
    cases dumped : dumpsAll payload with
    | error =>
      rw [dumped] at translated
      cases translated
    | ok serialized =>
      rw [dumped, ok_bind] at translated
      exact ⟨_, (Except.ok.inj translated).symm⟩

/-- A row that is decoded without an exception is published. -/
theorem decodePgoutput_row_ok {c c' : Consumer} {sent : List PgMessage} {row : Row}
    (cached : Cached c sent)
    (described : ∀ r, latestRelation sent row.table.oid.val = some r →
      r.cached = row.table.cached)
    (decoded : decodePgoutput num publish c row.message.encode = .ok c') :
    ∃ e, row.translation num = .ok e ∧ c' = { c with published := c.published ++ e.toList } := by
  have entry := cached row.table.oid.val
  cases latest : latestRelation sent row.table.oid.val with
  | none =>
    rw [latest] at entry
    -- without a cached relation the decoder raises, so it did not get here
    rw [decodePgoutput_unknown c row.message row.shape entry] at decoded
    cases decoded
  | some r =>
    rw [latest, Option.map_some, described r latest] at entry
    rw [decodePgoutput_row c row.message row.table row.shape entry row.new_fits row.old_fits,
      emit_cached c row.table.oid.val row.table.cached.1 row.table.cached.2 _ entry] at decoded
    cases translated : row.translation num with
    | error =>
      have failed : translate num row.table.cached.1
        (rowOf row.table.cached.2 row.new.data) = .error _ := translated
      rw [failed] at decoded
      cases decoded
    | ok e =>
      have done : translate num row.table.cached.1
        (rowOf row.table.cached.2 row.new.data) = .ok e := translated
      rw [done, ok_bind] at decoded
      exact ⟨e, rfl, publishing_ok decoded⟩

theorem received_error {c c' : Consumer} {walStart walEnd clock : WireInt 8}
    {payload : List UInt8} {e : PyError}
    (received : onCopyMessage num publish c
      (CopyData.xlogData walStart walEnd clock payload).encode = (c', .error e)) :
    c' = { c with lastLsn := max c.lastLsn walEnd.val } := by
  rw [onCopyMessage_xlogData] at received
  split at received
  · exact (Prod.mk.inj received).1.symm
  · cases (Prod.mk.inj received).2

theorem received_ok {c c' : Consumer} {walStart walEnd clock : WireInt 8}
    {payload : List UInt8} {reply : Bool}
    (received : onCopyMessage num publish c
      (CopyData.xlogData walStart walEnd clock payload).encode = (c', .ok reply)) :
    decodePgoutput num publish { c with lastLsn := max c.lastLsn walEnd.val } payload =
      .ok c' := by
  rw [onCopyMessage_xlogData] at received
  split at received
  · cases (Prod.mk.inj received).2
  next done =>
    rw [done, (Prod.mk.inj received).1]

end FleetTelemetry.Cdc
