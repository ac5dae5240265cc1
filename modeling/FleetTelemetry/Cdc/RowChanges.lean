import FleetTelemetry.Cdc.EventStream

/-!
# Reading a row change

The part of `_decode_pgoutput` that reads an insert or update, before anything is emitted:
it undoes the encoding of the new tuple, past the old tuple of an update, and ends with
the message.
-/

namespace FleetTelemetry.Cdc

open Foundations Foundations.Wire

/-- What `_decode_pgoutput` reads of an insert or update: the OID, the values of the new
tuple, and the reader where it stops. Other messages are no row change. -/
def readChange (c : Consumer) (payload : List UInt8) :
    Except PyError (Option (Int × OrdMap String Datum × Reader)) :=
  let (tag, r) := (Reader.new payload).char
  if tag = [73] then do
    let (oid, r) ← r.int32
    let (_, r) := r.char
    let (values, r) ← readTuple c oid r
    return some (oid, values, r)
  else if tag = [85] then do
    let (oid, r) ← r.int32
    let (kind, r) := r.char
    if kind = [75] ∨ kind = [79] then do
      let (_, r) ← readTuple c oid r
      let (_, r) := r.char
      let (values, r) ← readTuple c oid r
      return some (oid, values, r)
    else do
      let (values, r) ← readTuple c oid r
      return some (oid, values, r)
  else return none

section Emitting

variable (num : Numerals) (publish : Message → Except PyError Unit)

def emitChange (c : Consumer) :
    Option (Int × OrdMap String Datum × Reader) → Except PyError Consumer
  | none => .ok c
  | some (oid, values, _) => emit num publish c oid values

/-- The decoder caches a relation, or emits the change it read. -/
theorem decodePgoutput_eq (c : Consumer) (payload : List UInt8) :
    decodePgoutput num publish c payload =
      if (Reader.new payload).char.1 = [82] then cacheRelation c (Reader.new payload).char.2
      else readChange c payload >>= emitChange num publish c := by
  unfold decodePgoutput readChange
  generalize (Reader.new payload).char = field
  obtain ⟨tag, r⟩ := field
  dsimp only
  -- the two forms differ in where the emission is bound only
  split
  · rfl
  · split
    · simp only [bind_assoc]
      rfl
    · split
      · simp only [bind_assoc]
        refine congrArg (r.int32 >>= ·) (funext fun field => ?_)
        split <;> simp only [bind_assoc] <;> rfl
      · rfl

end Emitting

section Buffer

/-- The reads move the cursor and nothing else. -/
theorem unpack_buf {k : Nat} {r r' : Reader} {v : Int} (read : r.unpack k = .ok (v, r')) :
    r'.buf = r.buf := by
  obtain ⟨_, _, last⟩ := except_bind_ok read
  cases last
  rfl

theorem readDatum_buf {kind : List UInt8} {d : Datum} {r r' : Reader}
    (read : readDatum kind r = .ok (d, r')) : r'.buf = r.buf := by
  unfold readDatum at read
  split at read
  · cases read
    rfl
  · split at read
    · cases read
      rfl
    · obtain ⟨⟨length, r₁⟩, sized, rest⟩ := except_bind_ok read
      obtain ⟨_, _, last⟩ := except_bind_ok rest
      cases last
      have same : r₁.buf = r.buf := unpack_buf sized
      exact same

theorem readColumnsOf_buf {columns : List String} {n i : Nat} {values values' : OrdMap String Datum}
    {r r' : Reader} (read : readColumnsOf columns n i values r = .ok (values', r')) :
    r'.buf = r.buf := by
  induction n generalizing i values r with
  | zero =>
    cases read
    rfl
  | succ n ih =>
    simp only [readColumnsOf] at read
    split at read
    · cases read
    · obtain ⟨⟨d, r₁⟩, datum, rest⟩ := except_bind_ok read
      have same : r₁.buf = r.char.2.buf := readDatum_buf datum
      exact (ih rest).trans same

theorem readTuple_buf {c : Consumer} {oid : Int} {values : OrdMap String Datum} {r r' : Reader}
    (read : readTuple c oid r = .ok (values, r')) : r'.buf = r.buf := by
  obtain ⟨_, _, rest⟩ := except_bind_ok read
  obtain ⟨⟨size, r₁⟩, counted, columns⟩ := except_bind_ok rest
  exact (readColumnsOf_buf columns).trans (unpack_buf counted)

theorem readChange_buf {c : Consumer} {payload : List UInt8} {oid : Int}
    {values : OrdMap String Datum} {r : Reader}
    (read : readChange c payload = .ok (some (oid, values, r))) : r.buf = payload := by
  simp only [readChange] at read
  -- an insert has the new tuple only, an update may have the old one in front
  split at read
  · obtain ⟨⟨oid, r₁⟩, opened, rest⟩ := except_bind_ok read
    obtain ⟨⟨values, r₂⟩, tuple, last⟩ := except_bind_ok rest
    cases last
    have start : r₁.buf = payload := unpack_buf opened
    exact (readTuple_buf tuple).trans start
  · split at read
    · obtain ⟨⟨oid, r₁⟩, opened, rest⟩ := except_bind_ok read
      have start : r₁.buf = payload := unpack_buf opened
      dsimp only at rest
      -- the marker after the OID says whether an old tuple comes first
      split at rest
      · obtain ⟨⟨_, r₂⟩, skipped, rest⟩ := except_bind_ok rest
        obtain ⟨⟨values, r₃⟩, tuple, last⟩ := except_bind_ok rest
        cases last
        have past : r₂.buf = r₁.char.2.buf := readTuple_buf skipped
        exact (readTuple_buf tuple).trans (past.trans start)
      · obtain ⟨⟨values, r₂⟩, tuple, last⟩ := except_bind_ok rest
        cases last
        exact (readTuple_buf tuple).trans start
    · cases read

end Buffer

section Rows

/-- The tag, the relation's OID and the kind of the first tuple. -/
theorem opening_unread (tag : UInt8) (oid : WireInt 4) (kind : UInt8) (rest : List UInt8) :
    ∃ r₁ r₂ r₃, (Reader.new (tag :: (oid.encode ++ (kind :: rest)))).char = ([tag], r₁) ∧
      r₁.unpack 4 = .ok (oid.val, r₂) ∧ r₂.char = ([kind], r₃) ∧ r₃.Unread rest := by
  obtain ⟨r₁, opened, unread₁⟩ :=
    Reader.char_unread (Reader.unread_new (tag :: (oid.encode ++ (kind :: rest))))
  obtain ⟨r₂, read, unread₂⟩ := Reader.unpack_unread oid unread₁
  obtain ⟨r₃, marker, unread₃⟩ := Reader.char_unread unread₂
  exact ⟨r₁, r₂, r₃, opened, read, marker, unread₃⟩

section Opening

variable {c : Consumer} {p kind : List UInt8} {oid : Int} {r₁ r₂ r₃ : Reader}

/-- Behind its opening an insert is one tuple. -/
theorem readChange_insert (tag : (Reader.new p).char = ([73], r₁))
    (read : r₁.unpack 4 = .ok (oid, r₂)) (marker : r₂.char = (kind, r₃)) :
    readChange c p =
      readTuple c oid r₃ >>= fun new => .ok (some (oid, new.1, new.2)) := by
  simp only [readChange, tag, if_true, Reader.int32, read, ok_bind, marker]
  rfl

/-- So is an update without an old tuple. -/
theorem readChange_update (tag : (Reader.new p).char = ([85], r₁))
    (read : r₁.unpack 4 = .ok (oid, r₂)) (marker : r₂.char = (kind, r₃))
    (notOld : ¬(kind = [75] ∨ kind = [79])) :
    readChange c p =
      readTuple c oid r₃ >>= fun new => .ok (some (oid, new.1, new.2)) := by
  have notInsert : ¬([85] : List UInt8) = [73] := by decide
  simp only [readChange, tag, if_neg notInsert, if_true, Reader.int32, read, ok_bind, marker,
    if_neg notOld]
  rfl

/-- An old tuple is read and dropped, and so is the marker behind it. -/
theorem readChange_updateOld (tag : (Reader.new p).char = ([85], r₁))
    (read : r₁.unpack 4 = .ok (oid, r₂)) (marker : r₂.char = (kind, r₃))
    (isOld : kind = [75] ∨ kind = [79]) :
    readChange c p =
      readTuple c oid r₃ >>= fun old => readTuple c oid old.2.char.2 >>=
        fun new => .ok (some (oid, new.1, new.2)) := by
  have notInsert : ¬([85] : List UInt8) = [73] := by decide
  simp only [readChange, tag, if_neg notInsert, if_true, Reader.int32, read, ok_bind, marker,
    if_pos isOld]
  rfl

theorem isOld_tag (kind : OldKind) :
    ([kind.tag] : List UInt8) = [75] ∨ ([kind.tag] : List UInt8) = [79] := by
  cases kind with
  | key => exact .inl rfl
  | full => exact .inr rfl

theorem notOld_new : ¬(([78] : List UInt8) = [75] ∨ ([78] : List UInt8) = [79]) := by decide

end Opening

/-- A row change is read under the cached relation, past the old tuple of an update, to
the end of the message. -/
theorem readChange_row (c : Consumer) (m : PgMessage) (r : Relation) {oid : WireInt 4}
    {old : Option Tuple} {new : Tuple} (row : m.row? = some (oid, old, new))
    (cached : c.relations.get? oid.val = some r.cached)
    (newFits : new.data.length ≤ r.columns.length)
    (oldFits : ∀ t, old = some t → t.data.length ≤ r.columns.length) :
    ∃ reader, readChange c m.encode = .ok (some (oid.val, rowOf r.cached.2 new.data, reader)) ∧
      reader.Unread [] := by
  cases m with
  | relation | silent => cases row
  | insert oid new =>
    cases row
    -- the new tuple is the last thing in the message
    obtain ⟨r₁, r₂, r₃, tag, read, marker, unread₃⟩ := opening_unread 73 oid 78 new.encode
    rw [← List.append_nil new.encode] at unread₃
    obtain ⟨r₄, values, unread₄⟩ := readTuple_unread c oid.val r new cached newFits unread₃
    refine ⟨r₄, ?_, unread₄⟩
    rw [PgMessage.encode, readChange_insert tag read marker, values]
    rfl
  | update oid old' new =>
    cases old' with
    | none =>
      cases row
      obtain ⟨r₁, r₂, r₃, tag, read, marker, unread₃⟩ := opening_unread 85 oid 78 new.encode
      rw [← List.append_nil new.encode] at unread₃
      obtain ⟨r₄, values, unread₄⟩ := readTuple_unread c oid.val r new cached newFits unread₃
      refine ⟨r₄, ?_, unread₄⟩
      rw [PgMessage.encode, readChange_update tag read marker notOld_new, values]
      rfl
    | some before =>
      obtain ⟨kind, before⟩ := before
      cases row
      -- the old tuple is read and dropped, then the marker of the new one
      obtain ⟨r₁, r₂, r₃, tag, read, marker, unread₃⟩ :=
        opening_unread 85 oid kind.tag (before.encode ++ (78 :: new.encode))
      obtain ⟨r₄, skipped, unread₄⟩ :=
        readTuple_unread c oid.val r before cached (oldFits before rfl) unread₃
      obtain ⟨r₅, newMarker, unread₅⟩ := Reader.char_unread unread₄
      rw [← List.append_nil new.encode] at unread₅
      obtain ⟨r₆, values, unread₆⟩ := readTuple_unread c oid.val r new cached newFits unread₅
      refine ⟨r₆, ?_, unread₆⟩
      rw [PgMessage.encode, readChange_updateOld tag read marker (isOld_tag kind), skipped, ok_bind,
        newMarker, values]
      rfl

/-- A row change of a relation that is not cached is not read at all. -/
theorem readChange_unknown (c : Consumer) (m : PgMessage) {oid : WireInt 4}
    {old : Option Tuple} {new : Tuple} (row : m.row? = some (oid, old, new))
    (unknown : c.relations.get? oid.val = none) : readChange c m.encode = .error .keyError := by
  have missing : ∀ r, readTuple c oid.val r = .error .keyError := by
    intro r
    simp only [readTuple, Consumer.relation, unknown]
    rfl
  have notInsert : ¬([85] : List UInt8) = [73] := by decide
  cases m with
  | relation | silent => cases row
  | insert oid new =>
    cases row
    obtain ⟨r₁, r₂, _, tag, read, _⟩ := opening_unread 73 oid 78 new.encode
    simp only [readChange, PgMessage.encode, tag, if_true, Reader.int32, read, ok_bind, missing]
    rfl
  | update oid old' new =>
    -- the columns are looked up at the first tuple, whichever of the two it is
    have opened : ∃ r₁ r₂, (Reader.new (PgMessage.encode (.update oid old' new))).char =
        ([85], r₁) ∧ r₁.unpack 4 = .ok (oid.val, r₂) := by
      cases old' with
      | none =>
        obtain ⟨r₁, r₂, _, tag, read, _⟩ := opening_unread 85 oid 78 new.encode
        exact ⟨r₁, r₂, tag, read⟩
      | some before =>
        obtain ⟨r₁, r₂, _, tag, read, _⟩ := opening_unread 85 oid before.1.tag
          (before.2.encode ++ (78 :: new.encode))
        exact ⟨r₁, r₂, tag, read⟩
    cases row
    obtain ⟨r₁, r₂, tag, read⟩ := opened
    simp only [readChange, tag, if_neg notInsert, if_true, Reader.int32, read, ok_bind, missing]
    split <;> rfl

variable (num : Numerals) (publish : Message → Except PyError Unit)

/-- A row change goes to `readChange`, never to the relation cache. -/
theorem decodePgoutput_change (c : Consumer) (m : PgMessage) {oid : WireInt 4}
    {old : Option Tuple} {new : Tuple} (row : m.row? = some (oid, old, new)) :
    decodePgoutput num publish c m.encode =
      readChange c m.encode >>= emitChange num publish c := by
  -- a row change does not begin with the tag of a relation
  have tag : ∀ b : UInt8, b ≠ 82 → ∀ body,
      ¬(Reader.new (b :: body)).char.1 = [82] := by
    intro b apart body same
    obtain ⟨r₁, char, _⟩ := Reader.char_unread (Reader.unread_new (b :: body))
    rw [char, List.singleton_inj] at same
    exact apart same
  rw [decodePgoutput_eq, if_neg]
  cases m with
  | relation | silent => cases row
  | insert oid new => exact tag 73 (by decide) _
  | update oid old' new =>
    cases old' with
    | none => exact tag 85 (by decide) _
    | some before => exact tag 85 (by decide) _

theorem decodePgoutput_relation (c : Consumer) (r : Relation) :
    decodePgoutput num publish c (PgMessage.relation r).encode =
      .ok { c with relations := c.relations.set r.oid.val r.cached } := by
  obtain ⟨r₁, tag, unread⟩ :=
    Reader.char_unread (Reader.unread_new (PgMessage.encode (.relation r)))
  rw [decodePgoutput_eq, tag, if_pos rfl]
  exact cacheRelation_unread c r unread

/-- A complete tuple over distinct columns is the dictionary of its columns. -/
theorem entries_rowOf {names : List String} (distinct : names.Nodup) {data : List Datum}
    (complete : data.length = names.length) : (rowOf names data).entries = names.zip data := by
  have unique : ((OrdMap.empty : OrdMap String Datum).keys ++
      (names.zip data).map Prod.fst).Nodup := by
    rw [List.map_fst_zip complete.ge]
    simpa using distinct
  exact OrdMap.entries_foldl_entries (names.zip data) .empty unique

/-- Decoding undoes encoding: after the Relation message, whatever was cached before, a row
change is read as the new tuple by column name, to the last byte of the message. -/
theorem readChange_encode (c : Consumer) (oid : Nat) (fits : oid < 256 ^ 4) (r : Relation)
    (sameOid : r.oid = .ofUnsigned 4 oid fits) (distinct : r.columnNames.Nodup) (m : PgMessage)
    (old : Option Tuple) (new : Tuple) (row : m.row? = some (r.oid, old, new))
    (complete : new.data.length = r.columns.length)
    (oldFits : ∀ t, old = some t → t.data.length ≤ r.columns.length) :
    r.oid.encode = bigEndian 4 oid ∧
    ∃ c', decodePgoutput num publish c (PgMessage.relation r).encode = .ok c' ∧
      c'.relation r.oid.val = .ok r.cached ∧
      ∃ values reader,
        readChange c' m.encode = .ok (some (r.oid.val, values, reader)) ∧
        values.entries = r.columnNames.zip new.data ∧
        reader.buf = m.encode ∧ reader.pos = m.encode.length ∧
        decodePgoutput num publish c' m.encode = emit num publish c' r.oid.val values := by
  constructor
  · rw [sameOid]
    exact WireInt.encode_ofUnsigned 4 oid fits
  · refine ⟨_, decodePgoutput_relation num publish c r, ?_, ?_⟩
    · simp [Consumer.relation]
    -- reading stops where the message does, so nothing of it is left over
    · obtain ⟨reader, read, read', buffer, ends⟩ :=
        readChange_row { c with relations := c.relations.set r.oid.val r.cached } m r row
          (OrdMap.get?_set_self _ _ _) complete.le oldFits
      have whole := readChange_buf read
      refine ⟨_, reader, read, ?_, whole, ?_, ?_⟩
      · apply entries_rowOf distinct
        rw [complete, Relation.columnNames, List.length_map]
      · rw [ends, ← whole, buffer, List.append_nil]
      · rw [decodePgoutput_change num publish _ m row, read]
        rfl

end Rows

theorem clean_public : 0 ∉ utf8 "public" := by decide

/-- The type modifier of a column without one. -/
theorem inRange_noModifier : InRange 4 (-1) := by decide

/-- A table whose OID is past the signed range, with a full replica identity. -/
def lateRelation : Relation :=
  { oid := .ofUnsigned 4 4000000000 (by decide)
    namespaceName := ⟨"public", clean_public⟩
    name := ⟨"notes", by decide⟩
    replicaIdentity := 102
    columns := [⟨1, ⟨"note", by decide⟩, ⟨25, by decide⟩, ⟨-1, inRange_noModifier⟩⟩]
    columns_fit := by decide }

/-- An update with its full old row. -/
theorem readChange_encode_full :
    ∃ c', decodePgoutput ⟨fun _ => .error .valueError, fun _ => .error .valueError⟩
        (fun _ => .ok ()) .new (PgMessage.relation lateRelation).encode = .ok c' ∧
      c'.relation lateRelation.oid.val = .ok lateRelation.cached ∧
      ∃ values reader,
        readChange c' (PgMessage.update lateRelation.oid
            (some (.full, ⟨[.text "before"], by decide, by decide⟩))
            ⟨[.text "after"], by decide, by decide⟩).encode =
          .ok (some (lateRelation.oid.val, values, reader)) ∧
        values.entries = [("note", .text "after")] := by
  obtain ⟨_, c', cached, known, values, reader, read, same, _⟩ :=
    readChange_encode ⟨fun _ => .error .valueError, fun _ => .error .valueError⟩
      (fun _ => .ok ()) .new 4000000000 (by decide) lateRelation rfl (by decide)
      (.update lateRelation.oid (some (.full, ⟨[.text "before"], by decide, by decide⟩))
        ⟨[.text "after"], by decide, by decide⟩) _ _ rfl (by decide) (by rintro t ⟨⟩; decide)
  exact ⟨c', cached, known, values, reader, read, same⟩

end FleetTelemetry.Cdc
