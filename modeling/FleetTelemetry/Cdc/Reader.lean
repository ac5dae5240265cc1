import FleetTelemetry.Foundations.Wire
import FleetTelemetry.Store.Values

/-!
# Reading a replication message

The cursor `_Reader` over Python `bytes`, with Python's own rules for an index, a slice
and an offset outside the buffer, and what each read does on a buffer whose unread part
starts with the field it expects.
-/

namespace FleetTelemetry.Cdc

open Foundations.Wire

namespace Bytes

/-- `buf[i]`. -/
def getItem (buf : List UInt8) (i : Int) : Except PyError UInt8 :=
  -- a negative index counts from the end
  let j := if i < 0 then i + buf.length else i
  if j < 0 then .error .indexError
  else match buf[j.toNat]? with
    | some b => .ok b
    | none => .error .indexError

/-- A slice bound as Python clips it. -/
def clip (length : Nat) (i : Int) : Nat :=
  if i < 0 then (i + length).toNat else min i.toNat length

/-- `buf[a:b]`. -/
def slice (buf : List UInt8) (a b : Int) : List UInt8 :=
  (buf.take (clip buf.length b)).drop (clip buf.length a)

/-- `struct.unpack_from` of one signed big-endian field of `k` bytes. -/
def unpackFrom (k : Nat) (buf : List UInt8) (offset : Int) : Except PyError Int :=
  let j := if offset < 0 then offset + buf.length else offset
  if 0 ≤ j ∧ j + k ≤ buf.length then .ok (decodeInt ((buf.drop j.toNat).take k))
  else .error .structError

/-- `buf.index(0, start)`. -/
def indexNul (buf : List UInt8) (start : Int) : Except PyError Int :=
  match (buf.drop (clip buf.length start)).findIdx? (· == 0) with
  | some i => .ok (clip buf.length start + i)
  | none => .error .valueError

/-- `bs.decode("utf-8")`. -/
def decode (bs : List UInt8) : Except PyError String :=
  match decodeUtf8 bs with
  | some text => .ok text
  | none => .error .unicodeDecodeError

end Bytes

structure Reader where
  buf : List UInt8
  pos : Int

namespace Reader

def new (buf : List UInt8) : Reader := ⟨buf, 0⟩

def int8 (r : Reader) : Except PyError (UInt8 × Reader) := do
  let v ← Bytes.getItem r.buf r.pos
  return (v, { r with pos := r.pos + 1 })

/-- One byte as `bytes`, empty past the end. -/
def char (r : Reader) : List UInt8 × Reader :=
  (Bytes.slice r.buf r.pos (r.pos + 1), { r with pos := r.pos + 1 })

def unpack (k : Nat) (r : Reader) : Except PyError (Int × Reader) := do
  let v ← Bytes.unpackFrom k r.buf r.pos
  return (v, { r with pos := r.pos + k })

def int16 : Reader → Except PyError (Int × Reader) := unpack 2
def int32 : Reader → Except PyError (Int × Reader) := unpack 4

def string (r : Reader) : Except PyError (String × Reader) := do
  -- the slice ends before the NUL, the cursor moves past it
  let stop ← Bytes.indexNul r.buf r.pos
  let s ← Bytes.decode (Bytes.slice r.buf r.pos stop)
  return (s, { r with pos := stop + 1 })

def take (n : Int) (r : Reader) : List UInt8 × Reader :=
  (Bytes.slice r.buf r.pos (r.pos + n), { r with pos := r.pos + n })

/-- The unread part of the buffer. -/
def Unread (r : Reader) (rest : List UInt8) : Prop :=
  ∃ read, r.buf = read ++ rest ∧ r.pos = read.length

theorem unread_new (buf : List UInt8) : (new buf).Unread buf := ⟨[], rfl, rfl⟩

theorem Unread.skip {r : Reader} {field rest : List UInt8} (unread : r.Unread (field ++ rest)) :
    Unread { r with pos := r.pos + field.length } rest := by
  obtain ⟨read, buf, pos⟩ := unread
  refine ⟨read ++ field, ?_, ?_⟩
  · rw [buf, List.append_assoc]
  · simp [pos]

theorem slice_unread {r : Reader} {field rest : List UInt8} (unread : r.Unread (field ++ rest)) :
    Bytes.slice r.buf r.pos (r.pos + field.length) = field := by
  obtain ⟨read, buf, pos⟩ := unread
  have start : Bytes.clip r.buf.length r.pos = read.length := by
    rw [Bytes.clip, if_neg (by omega), buf, pos]
    simp
  have stop : Bytes.clip r.buf.length (r.pos + field.length) = read.length + field.length := by
    rw [Bytes.clip, if_neg (by omega), buf, pos]
    simp
    omega
  rw [Bytes.slice, start, stop, buf, ← List.append_assoc, ← List.length_append,
    List.take_left', List.drop_left']
  · rfl
  · simp

theorem char_unread {r : Reader} {b : UInt8} {rest : List UInt8} (unread : r.Unread (b :: rest)) :
    ∃ r', r.char = ([b], r') ∧ r'.Unread rest := by
  have field : r.Unread ([b] ++ rest) := unread
  exact ⟨_, Prod.ext (slice_unread field) rfl, field.skip⟩

theorem take_unread {r : Reader} {field rest : List UInt8} (unread : r.Unread (field ++ rest)) :
    ∃ r', r.take field.length = (field, r') ∧ r'.Unread rest :=
  ⟨_, Prod.ext (slice_unread unread) rfl, unread.skip⟩

theorem int8_unread {r : Reader} {b : UInt8} {rest : List UInt8} (unread : r.Unread (b :: rest)) :
    ∃ r', r.int8 = .ok (b, r') ∧ r'.Unread rest := by
  obtain ⟨read, buf, pos⟩ := id unread
  have item : Bytes.getItem r.buf r.pos = .ok b := by
    have forward : ¬(read.length : Int) < 0 := by omega
    simp [Bytes.getItem, buf, pos, forward]
  have field : r.Unread ([b] ++ rest) := unread
  refine ⟨{ r with pos := r.pos + 1 }, ?_, field.skip⟩
  simp only [int8, item]
  rfl

theorem unpackFrom_field {k : Nat} (before : List UInt8) (v : WireInt k) (rest : List UInt8) :
    Bytes.unpackFrom k (before ++ (v.encode ++ rest)) before.length = .ok v.val := by
  have width : v.encode.length = k := length_encodeInt k v.val
  have field : ((before ++ (v.encode ++ rest)).drop before.length).take k = v.encode := by
    rw [List.drop_left' rfl]
    exact List.take_left' width
  have forward : ¬(before.length : Int) < 0 := by omega
  have inside : (0 : Int) ≤ before.length ∧
      (before.length : Int) + k ≤ (before ++ (v.encode ++ rest)).length := by
    simp [width]
  rw [Bytes.unpackFrom]
  simp only [if_neg forward, if_pos inside, Int.toNat_natCast, field]
  rw [WireInt.encode, decodeInt_encodeInt k v.val v.range]

theorem unpackFrom_at {k : Nat} (before : List UInt8) (v : WireInt k) (rest : List UInt8)
    (n : Int) (start : (before.length : Int) = n) :
    Bytes.unpackFrom k (before ++ (v.encode ++ rest)) n = .ok v.val := by
  rw [← start]
  exact unpackFrom_field before v rest

theorem unpackFrom_inRange {k : Nat} {buf : List UInt8} {offset v : Int}
    (read : Bytes.unpackFrom k buf offset = .ok v) : InRange k v := by
  unfold Bytes.unpackFrom at read
  dsimp only at read
  generalize (if offset < 0 then offset + buf.length else offset) = j at read
  split at read
  next inside =>
    have width : ((buf.drop j.toNat).take k).length = k := by
      rw [List.length_take, List.length_drop]
      omega
    have range := inRange_decodeInt ((buf.drop j.toNat).take k)
    rw [width] at range
    cases read
    exact range
  · cases read

theorem unpack_unread {k : Nat} {r : Reader} {rest : List UInt8} (v : WireInt k)
    (unread : r.Unread (v.encode ++ rest)) :
    ∃ r', r.unpack k = .ok (v.val, r') ∧ r'.Unread rest := by
  obtain ⟨read, buf, pos⟩ := id unread
  have value : Bytes.unpackFrom k r.buf r.pos = .ok v.val := by
    rw [buf, pos]
    exact unpackFrom_field read v rest
  refine ⟨{ r with pos := r.pos + k }, ?_, ?_⟩
  · simp only [unpack, value]
    rfl
  · have next := unread.skip
    have width : v.encode.length = k := length_encodeInt k v.val
    simpa only [width] using next

/-- Text closed by the first NUL byte. -/
theorem string_unread {r : Reader} {rest : List UInt8} (text : String) (clean : 0 ∉ utf8 text)
    (unread : r.Unread (utf8 text ++ 0 :: rest)) :
    ∃ r', r.string = .ok (text, r') ∧ r'.Unread rest := by
  obtain ⟨read, buf, pos⟩ := id unread
  have start : Bytes.clip r.buf.length r.pos = read.length := by
    rw [Bytes.clip, if_neg (by omega), buf, pos]
    simp
  have stop : Bytes.indexNul r.buf r.pos = .ok (r.pos + (utf8 text).length) := by
    -- the text itself has no zero byte, so the first one is its terminator
    have found : (utf8 text ++ 0 :: rest).findIdx? (· == 0) = some (utf8 text).length := by
      rw [List.findIdx?_append]
      have absent : (utf8 text).findIdx? (· == 0) = none := by
        rw [List.findIdx?_eq_none_iff]
        intro b member
        have apart : b ≠ 0 := by
          rintro rfl
          exact clean member
        simpa using apart
      simp [absent, List.findIdx?_cons]
    simp only [Bytes.indexNul, start]
    rw [buf, List.drop_left' rfl, found, pos]
  have decoded : Bytes.decode (Bytes.slice r.buf r.pos (r.pos + (utf8 text).length)) =
      .ok text := by
    rw [slice_unread unread, Bytes.decode, decodeUtf8_utf8]
  refine ⟨{ r with pos := r.pos + (utf8 text).length + 1 }, ?_, ?_⟩
  · simp only [string, stop, bind, Except.bind, decoded]
    rfl
  · have closed : r.Unread ((utf8 text ++ [0]) ++ rest) := by
      simpa using unread
    have next := closed.skip
    simpa [Int.add_assoc] using next

end Reader

end FleetTelemetry.Cdc
