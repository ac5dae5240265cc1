import Mathlib.Algebra.Order.Field.Rat
import Mathlib.Tactic.NormNum

/-!
# Python values

The numbers, instants, texts and exceptions the service computes with. A `Double` is a Python
`float` with its special values; finite values are exact rationals, so comparisons are
those of the source and arithmetic is free of rounding. Instants count microseconds from
the Unix epoch, the resolution of both `datetime` and `timestamptz`. A Python `str` may hold
code points that no UTF-8 text and no PostgreSQL value can.
-/

namespace FleetTelemetry

inductive PyError where
  | typeError
  | lookupError (message : String)
  | keyError
  | indexError
  | valueError
  | structError
  | unicodeDecodeError
  | unicodeEncodeError
  | dataError
  | numericValueOutOfRange
  deriving DecidableEq, Repr

inductive Double where
  | finite (q : ℚ)
  | posInf
  | negInf
  | nan
  deriving DecidableEq, Repr

namespace Double

/-- IEEE `<`: false whenever an operand is NaN. -/
def lt : Double → Double → Bool
  | nan, _ => false
  | _, nan => false
  | finite a, finite b => decide (a < b)
  | finite _, posInf => true
  | finite _, negInf => false
  | negInf, negInf => false
  | negInf, _ => true
  | posInf, _ => false

/-- IEEE `<=`. -/
def le : Double → Double → Bool
  | nan, _ => false
  | _, nan => false
  | finite a, finite b => decide (a ≤ b)
  | negInf, _ => true
  | _, posInf => true
  | _, _ => false

def sub : Double → Double → Double
  | nan, _ => nan
  | _, nan => nan
  | finite a, finite b => finite (a - b)
  | finite _, posInf => negInf
  | finite _, negInf => posInf
  | posInf, posInf => nan
  | posInf, _ => posInf
  | negInf, negInf => nan
  | negInf, _ => negInf

/-- The square of `math.hypot`, which is infinite as soon as one leg is, even next to a
NaN. Squares keep the length exact. -/
def hypotSq : Double → Double → Double
  | posInf, _ => posInf
  | negInf, _ => posInf
  | _, posInf => posInf
  | _, negInf => posInf
  | nan, _ => nan
  | _, nan => nan
  | finite a, finite b => finite (a * a + b * b)

/-- Division by a positive rational. -/
def divBy : Double → ℚ → Double
  | finite a, q => finite (a / q)
  | x, _ => x

end Double

/-- A `datetime` with a UTC offset, by its instant, or without one, by its wall clock. -/
inductive Datetime where
  | aware (utc : Int)
  | naive (wall : Int)
  deriving DecidableEq, Repr

namespace Datetime

/-- The stored `timestamptz`; the server reads a naive parameter in its own zone, UTC. -/
def instant : Datetime → Int
  | aware utc => utc
  | naive wall => wall

/-- `a - b` in microseconds. Python refuses to mix the two kinds. -/
def sub : Datetime → Datetime → Except PyError Int
  | aware a, aware b => .ok (a - b)
  | naive a, naive b => .ok (a - b)
  | _, _ => .error .typeError

end Datetime

/-- psycopg reads a stored instant back as a `datetime`, whose years are 1 to 9999. -/
def readable (instant : Int) : Bool :=
  decide (-62135596800000000 ≤ instant) && decide (instant ≤ 253402300799999999)

/-- Whether a text holds U+0000, which no PostgreSQL text value can. -/
def hasNul (text : String) : Bool := text.toList.contains '\x00'

inductive CodePoint where
  | char (c : Char)
  | surrogate (offset : Fin 2048)
  deriving DecidableEq, Repr

def CodePoint.char? : CodePoint → Option Char
  | char c => some c
  | surrogate _ => none

/-- A Python `str`. `json.loads` reads a lone surrogate as a code point of its own. -/
structure PyStr where
  codePoints : List CodePoint
  deriving DecidableEq, Repr

namespace PyStr

def ofString (text : String) : PyStr := ⟨text.toList.map .char⟩

instance coeString : Coe String PyStr := ⟨ofString⟩

def join (separator : String) (parts : List PyStr) : PyStr :=
  ⟨(separator.toList.map CodePoint.char).intercalate (parts.map codePoints)⟩

/-- The text that is stored. -/
def text (s : PyStr) : String := String.ofList (s.codePoints.filterMap CodePoint.char?)

/-- UTF-8 has an encoding for it. -/
def encodable (s : PyStr) : Bool := s.codePoints.all fun c => c.char?.isSome

def nul (s : PyStr) : Bool := s.codePoints.contains (.char '\x00')

/-- psycopg passes it on: it can be encoded, and holds no U+0000. -/
def storable (s : PyStr) : Bool := s.encodable && !s.nul

/-- The exception psycopg raises on a text parameter. -/
def refusal (s : PyStr) : Option PyError :=
  if s.encodable = false then some .unicodeEncodeError
  else if s.nul = true then some .dataError
  else none

theorem refusal_eq_none (s : PyStr) : s.refusal = none ↔ s.storable = true := by
  unfold refusal storable
  cases s.encodable <;> cases s.nul <;> simp

theorem refusal_cases {s : PyStr} {e : PyError} (refused : s.refusal = some e) :
    e = .unicodeEncodeError ∨ e = .dataError := by
  unfold refusal at refused
  split at refused
  · exact .inl (Option.some.inj refused).symm
  · split at refused
    · exact .inr (Option.some.inj refused).symm
    · cases refused

@[simp] theorem text_ofString (text : String) : (ofString text).text = text := by
  have chars : (text.toList.map CodePoint.char).filterMap CodePoint.char? = text.toList := by
    rw [List.filterMap_map]
    exact List.filterMap_some
  rw [PyStr.text, ofString, chars, String.ofList_toList]

@[simp] theorem encodable_ofString (text : String) : (ofString text).encodable = true := by
  simp [encodable, ofString, CodePoint.char?]

@[simp] theorem nul_ofString (text : String) : (ofString text).nul = hasNul text := by
  rw [Bool.eq_iff_iff]
  simp [nul, ofString, hasNul]

@[simp] theorem storable_ofString (text : String) :
    (ofString text).storable = !hasNul text := by
  simp [storable]

theorem storable_iff (s : PyStr) :
    s.storable = true ↔ ∀ c ∈ s.codePoints, c.char?.isSome = true ∧ c ≠ .char '\x00' := by
  simp only [storable, encodable, nul, Bool.and_eq_true, Bool.not_eq_true', List.all_eq_true,
    List.contains_eq_mem, decide_eq_false_iff_not]
  constructor
  · rintro ⟨characters, noNul⟩ c member
    exact ⟨characters c member, fun same => noNul (same ▸ member)⟩
  · intro good
    exact ⟨fun c member => (good c member).1, fun member => (good _ member).2 rfl⟩

/-- Joining neither adds nor hides a code point that is refused. -/
theorem storable_join {separator : String} (plain : hasNul separator = false)
    (parts : List PyStr) :
    (join separator parts).storable = true ↔ ∀ part ∈ parts, part.storable = true := by
  have between : (ofString separator).storable = true := by simp [plain]
  simp only [storable_iff] at between ⊢
  -- the separator stands between two parts, so the first is split off from two
  induction parts with
  | nil => simp [join, List.intercalate]
  | cons part rest ih =>
    cases rest with
    | nil => simp [join, List.intercalate]
    | cons next rest =>
      have split : (join separator (part :: next :: rest)).codePoints = part.codePoints ++
          ((ofString separator).codePoints ++ (join separator (next :: rest)).codePoints) := by
        simp [join, ofString, List.intercalate]
      rw [split, List.forall_mem_append, List.forall_mem_append, List.forall_mem_cons]
      exact and_congr_right fun _ => (and_iff_right between).trans ih

end PyStr

end FleetTelemetry
