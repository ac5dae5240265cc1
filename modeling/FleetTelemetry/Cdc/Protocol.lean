import FleetTelemetry.Cdc.Decoder

/-!
# The pgoutput messages

The messages of the replication stream and their wire format. Counts, lengths and texts
carry the proof that they fit their field, so every value has an encoding.
-/

namespace FleetTelemetry.Cdc

open Foundations Foundations.Wire

/-- A count or length that fits a signed field of `k` bytes. -/
def count (k n : Nat) (fits : 2 * n < 256 ^ k) : WireInt k :=
  ⟨n, by
    constructor
    · have positive : (0 : Int) ≤ 256 ^ k := by positivity
      omega
    · exact_mod_cast fits⟩

/-- Text sent as a NUL-terminated string. -/
structure Name where
  text : String
  clean : 0 ∉ utf8 text

structure Column where
  flags : UInt8
  name : Name
  typeOid : WireInt 4
  typeModifier : WireInt 4

structure Relation where
  oid : WireInt 4
  namespaceName : Name
  name : Name
  replicaIdentity : UInt8
  columns : List Column
  columns_fit : 2 * columns.length < 256 ^ 2

/-- The bytes of a datum's text. -/
def Datum.size : Datum → Nat
  | text s => (utf8 s).length
  | _ => 0

structure Tuple where
  data : List Datum
  data_fit : 2 * data.length < 256 ^ 2
  texts_fit : ∀ d ∈ data, 2 * d.size < 256 ^ 4

/-- The old tuple of an update: its key columns, or the full row. -/
inductive OldKind where
  | key
  | full

/-- The messages that carry no row change the consumer looks at. -/
inductive Silent where
  | begin
  | commit
  | delete
  | truncate
  | origin
  | type

inductive PgMessage where
  | relation (r : Relation)
  | insert (oid : WireInt 4) (new : Tuple)
  | update (oid : WireInt 4) (old : Option (OldKind × Tuple)) (new : Tuple)
  | silent (kind : Silent) (body : List UInt8)

/-- The relation OID of a row change, the old tuple an update may carry, and the new one. -/
def PgMessage.row? : PgMessage → Option (WireInt 4 × Option Tuple × Tuple)
  | insert oid new => some (oid, none, new)
  | update oid old new => some (oid, old.map Prod.snd, new)
  | _ => none

def Name.encode (n : Name) : List UInt8 := utf8 n.text ++ [0]

def Column.encode (c : Column) : List UInt8 :=
  c.flags :: (c.name.encode ++ (c.typeOid.encode ++ c.typeModifier.encode))

def Relation.encode (r : Relation) : List UInt8 :=
  r.oid.encode ++ (r.namespaceName.encode ++ (r.name.encode ++ (r.replicaIdentity ::
    ((count 2 r.columns.length r.columns_fit).encode ++ r.columns.flatMap Column.encode))))

def encodeDatum : Datum → List UInt8
  | .null => [110]
  | .unchanged => [117]
  | .text s => 116 :: (encodeInt 4 (utf8 s).length ++ utf8 s)

def Tuple.encode (t : Tuple) : List UInt8 :=
  (count 2 t.data.length t.data_fit).encode ++ t.data.flatMap encodeDatum

def OldKind.tag : OldKind → UInt8
  | key => 75
  | full => 79

def Silent.tag : Silent → UInt8
  | begin => 66
  | commit => 67
  | delete => 68
  | truncate => 84
  | origin => 79
  | type => 89

def PgMessage.encode : PgMessage → List UInt8
  | relation r => 82 :: r.encode
  | insert oid new => 73 :: (oid.encode ++ (78 :: new.encode))
  | update oid none new => 85 :: (oid.encode ++ (78 :: new.encode))
  | update oid (some (kind, old)) new =>
    85 :: (oid.encode ++ (kind.tag :: (old.encode ++ (78 :: new.encode))))
  | silent kind body => kind.tag :: body

section Reading

@[simp] theorem ok_bind {A B : Type} (a : A) (f : A → Except PyError B) :
    (Except.ok a >>= f) = f a := rfl

theorem except_bind_ok {A B : Type} {x : Except PyError A} {f : A → Except PyError B} {b : B}
    (done : x >>= f = .ok b) : ∃ a, x = .ok a ∧ f a = .ok b := by
  cases x with
  | error e => cases done
  | ok a => exact ⟨a, rfl, done⟩

theorem name_unread {r : Reader} (n : Name) {rest : List UInt8}
    (unread : r.Unread (n.encode ++ rest)) :
    ∃ r', r.string = .ok (n.text, r') ∧ r'.Unread rest := by
  apply Reader.string_unread n.text n.clean
  simpa [Name.encode] using unread

/-- The columns of a Relation message are read in order, by name. -/
theorem readColumns_unread (columns : List Column) (names : List String) {r : Reader}
    {rest : List UInt8} (unread : r.Unread (columns.flatMap Column.encode ++ rest)) :
    ∃ r', readColumns columns.length names r =
      .ok (names ++ columns.map fun c => c.name.text, r') ∧ r'.Unread rest := by
  induction columns generalizing names r with
  | nil => exact ⟨r, by simp [readColumns], unread⟩
  | cons c columns ih =>
    -- a column is its flags, its name, its type and the modifier of the type
    simp only [List.flatMap_cons, Column.encode, List.cons_append, List.append_assoc] at unread
    obtain ⟨r₁, flags, unread₁⟩ := Reader.int8_unread unread
    obtain ⟨r₂, name, unread₂⟩ := name_unread c.name unread₁
    obtain ⟨r₃, typeOid, unread₃⟩ := Reader.unpack_unread c.typeOid unread₂
    obtain ⟨r₄, modifier, unread₄⟩ := Reader.unpack_unread c.typeModifier unread₃
    obtain ⟨r₅, others, unread₅⟩ := ih (names ++ [c.name.text]) unread₄
    refine ⟨r₅, ?_, unread₅⟩
    simp only [List.length_cons, readColumns, Reader.int32, flags, name, typeOid, modifier,
      ok_bind, others, List.map_cons, List.append_assoc, List.singleton_append]

/-- What the consumer caches of a relation. -/
def Relation.cached (r : Relation) : String × List String :=
  (r.name.text, r.columns.map fun c => c.name.text)

theorem cacheRelation_unread (c : Consumer) (relation : Relation) {r : Reader}
    (unread : r.Unread relation.encode) :
    cacheRelation c r =
      .ok { c with relations := c.relations.set relation.oid.val relation.cached } := by
  obtain ⟨r₁, oid, unread₁⟩ := Reader.unpack_unread relation.oid unread
  obtain ⟨r₂, space, unread₂⟩ := name_unread relation.namespaceName unread₁
  obtain ⟨r₃, name, unread₃⟩ := name_unread relation.name unread₂
  obtain ⟨r₄, identity, unread₄⟩ := Reader.int8_unread unread₃
  obtain ⟨r₅, size, unread₅⟩ := Reader.unpack_unread _ unread₄
  -- the columns are the last field, with nothing behind them
  rw [← List.append_nil (relation.columns.flatMap Column.encode)] at unread₅
  obtain ⟨r₆, columns, _⟩ := readColumns_unread relation.columns [] unread₅
  have counted : (count 2 relation.columns.length relation.columns_fit).val.toNat =
      relation.columns.length := Int.toNat_natCast _
  simp only [cacheRelation, Reader.int32, Reader.int16, oid, space, name, identity, size,
    ok_bind, counted, columns]
  rfl

theorem readDatum_unread (d : Datum) (fits : 2 * d.size < 256 ^ 4) {r : Reader}
    {rest : List UInt8} (unread : r.Unread (encodeDatum d ++ rest)) :
    ∃ kind r₁ r₂, r.char = (kind, r₁) ∧ readDatum kind r₁ = .ok (d, r₂) ∧ r₂.Unread rest := by
  cases d with
  | null =>
    obtain ⟨r₁, kind, unread₁⟩ := Reader.char_unread unread
    exact ⟨_, r₁, r₁, kind, rfl, unread₁⟩
  | unchanged =>
    obtain ⟨r₁, kind, unread₁⟩ := Reader.char_unread unread
    exact ⟨_, r₁, r₁, kind, rfl, unread₁⟩
  | text s =>
    -- a text has its length in front; the other two kinds are a byte alone
    simp only [encodeDatum, List.cons_append, List.append_assoc] at unread
    obtain ⟨r₁, kind, unread₁⟩ := Reader.char_unread unread
    obtain ⟨r₂, length, unread₂⟩ :=
      Reader.unpack_unread (count 4 (utf8 s).length fits) unread₁
    obtain ⟨r₃, taken, unread₃⟩ := Reader.take_unread unread₂
    refine ⟨_, r₁, r₃, kind, ?_, unread₃⟩
    have decoded : Bytes.decode (utf8 s) = .ok s := by
      rw [Bytes.decode, decodeUtf8_utf8]
    have taken' : r₂.take (count 4 (utf8 s).length fits).val = (utf8 s, r₃) := taken
    simp only [readDatum, Reader.int32, length, ok_bind, taken', decoded]
    rfl

/-- The dictionary `_read_tuple` builds: each value under its column's name. -/
def rowOf (columns : List String) (data : List Datum) : OrdMap String Datum :=
  (columns.zip data).foldl (fun values e => values.set e.1 e.2) .empty

theorem readColumnsOf_unread (columns : List String) (data : List Datum) (i : Nat)
    (values : OrdMap String Datum) (bounded : i + data.length ≤ columns.length)
    (fits : ∀ d ∈ data, 2 * d.size < 256 ^ 4) {r : Reader}
    {rest : List UInt8} (unread : r.Unread (data.flatMap encodeDatum ++ rest)) :
    ∃ r', readColumnsOf columns data.length i values r =
      .ok (((columns.drop i).zip data).foldl (fun values e => values.set e.1 e.2) values, r') ∧
      r'.Unread rest := by
  -- values are stored under the column of their index, so the index moves along
  induction data generalizing i values r with
  | nil => exact ⟨r, by simp [readColumnsOf], unread⟩
  | cons d data ih =>
    simp only [List.length_cons] at bounded
    have inside : i < columns.length := by omega
    rw [List.flatMap_cons, List.append_assoc] at unread
    obtain ⟨kind, r₁, r₂, char, datum, unread₂⟩ :=
      readDatum_unread d (fits d List.mem_cons_self) unread
    obtain ⟨r₃, later, unread₃⟩ := ih (i + 1) (values.set columns[i] d) (by omega)
      (fun d member => fits d (List.mem_cons_of_mem _ member)) unread₂
    refine ⟨r₃, ?_, unread₃⟩
    simp only [List.length_cons, readColumnsOf, char, List.getElem?_eq_getElem inside, datum,
      ok_bind, later]
    rw [List.drop_eq_getElem_cons inside, List.zip_cons_cons, List.foldl_cons]

theorem readTuple_unread (c : Consumer) (oid : Int) (relation : Relation) (t : Tuple)
    (cached : c.relations.get? oid = some relation.cached)
    (bounded : t.data.length ≤ relation.columns.length) {r : Reader} {rest : List UInt8}
    (unread : r.Unread (t.encode ++ rest)) :
    ∃ r', readTuple c oid r = .ok (rowOf relation.cached.2 t.data, r') ∧ r'.Unread rest := by
  rw [Tuple.encode, List.append_assoc] at unread
  obtain ⟨r₁, size, unread₁⟩ := Reader.unpack_unread _ unread
  have counted : (count 2 t.data.length t.data_fit).val.toNat = t.data.length :=
    Int.toNat_natCast _
  obtain ⟨r₂, read, unread₂⟩ := readColumnsOf_unread relation.cached.2 t.data 0 .empty
    (by simpa [Relation.cached] using bounded) t.texts_fit unread₁
  refine ⟨r₂, ?_, unread₂⟩
  simp only [readTuple, Consumer.relation, cached, Reader.int16, size, ok_bind, counted, read]
  rw [List.drop_zero]
  rfl

end Reading

end FleetTelemetry.Cdc
