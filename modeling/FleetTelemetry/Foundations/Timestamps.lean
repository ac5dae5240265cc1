import Mathlib.Data.Int.Notation

/-!
# Timestamps as text

An instant counts microseconds from 1970-01-01 in UTC; a zone gives the offset that is in
force at an instant, in seconds. The text of an instant is that of the wall clock in a
zone, as PostgreSQL writes a `timestamptz` in the ISO DateStyle and as Python's
`isoformat` writes an aware `datetime`.
-/

namespace Foundations.Timestamps

structure WallClock where
  year : Int
  month : Nat
  day : Nat
  hour : Nat
  minute : Nat
  second : Nat
  micros : Nat
  deriving DecidableEq, Repr

/-- The date of a day in the proleptic Gregorian calendar. Years run here from the first of
March, in cycles of 400, so that a leap day is the last day of its year. -/
def civil (days : Int) : Int × Nat × Nat :=
  let shifted := days + 719468
  let ofCycle := (shifted % 146097).toNat
  let yearOfCycle := (ofCycle - ofCycle / 1460 + ofCycle / 36524 - ofCycle / 146096) / 365
  let ofYear := ofCycle - (365 * yearOfCycle + yearOfCycle / 4 - yearOfCycle / 100)
  let fromMarch := (5 * ofYear + 2) / 153
  let month := if fromMarch < 10 then fromMarch + 3 else fromMarch - 9
  let year := yearOfCycle + shifted / 146097 * 400
  (if month ≤ 2 then year + 1 else year, month, ofYear - (153 * fromMarch + 2) / 5 + 1)

example : civil 0 = (1970, 1, 1) ∧ civil 11016 = (2000, 2, 29) ∧ civil (-719528) = (0, 1, 1) := by
  decide

def wallClock (zone : Int → Int) (instant : Int) : WallClock :=
  let reading := instant + zone instant * 1000000
  let (year, month, day) := civil (reading / 86400000000)
  let ofDay := (reading % 86400000000).toNat
  { year, month, day
    hour := ofDay / 3600000000
    minute := ofDay / 60000000 % 60
    second := ofDay / 1000000 % 60
    micros := ofDay % 1000000 }

def padded (width n : Nat) : List Char := (Nat.toDigits 10 n).leftpad width '0'

section Formats

def dateText (year month day : Nat) : List Char :=
  padded 4 year ++ '-' :: padded 2 month ++ '-' :: padded 2 day

def timeText (w : WallClock) : List Char :=
  padded 2 w.hour ++ ':' :: padded 2 w.minute ++ ':' :: padded 2 w.second

def sign (offset : Int) : Char := if 0 ≤ offset then '+' else '-'

/-- Six digits or none. -/
def isoFraction (micros : Nat) : List Char := if micros = 0 then [] else '.' :: padded 6 micros

def isoOffset (offset : Int) : List Char :=
  let seconds := offset.natAbs
  sign offset :: padded 2 (seconds / 3600) ++ ':' :: padded 2 (seconds / 60 % 60) ++
    if seconds % 60 = 0 then [] else ':' :: padded 2 (seconds % 60)

/-- Whether a `datetime` in the zone can hold the instant. -/
def hasDatetime (zone : Int → Int) (instant : Int) : Bool :=
  decide (1 ≤ (wallClock zone instant).year ∧ (wallClock zone instant).year ≤ 9999)

def isoformat (zone : Int → Int) (instant : Int) : String :=
  let w := wallClock zone instant
  String.ofList (dateText w.year.toNat w.month w.day ++ 'T' :: timeText w ++
    isoFraction w.micros ++ isoOffset (zone instant))

/-- As many digits as the fraction needs. -/
def trimmedFraction (micros : Nat) : List Char :=
  if micros = 0 then [] else '.' :: ((padded 6 micros).reverse.dropWhile (· = '0')).reverse

/-- The minutes and the seconds of an offset are written only where it has them. -/
def shortOffset (offset : Int) : List Char :=
  let seconds := offset.natAbs
  sign offset :: padded 2 (seconds / 3600) ++
    if seconds % 60 = 0 then
      if seconds / 60 % 60 = 0 then [] else ':' :: padded 2 (seconds / 60 % 60)
    else ':' :: padded 2 (seconds / 60 % 60) ++ ':' :: padded 2 (seconds % 60)

/-- The year before year 1 is 1 BC. -/
def timestamptzOut (zone : Int → Int) (instant : Int) : String :=
  let w := wallClock zone instant
  let year := if 0 < w.year then w.year.toNat else (1 - w.year).toNat
  let era := if 0 < w.year then [] else [' ', 'B', 'C']
  String.ofList (dateText year w.month w.day ++ ' ' :: timeText w ++ trimmedFraction w.micros ++
    shortOffset (zone instant) ++ era)

end Formats

example : timestamptzOut (fun _ => 0) 1781654400250000 = "2026-06-17 00:00:00.25+00" ∧
    isoformat (fun _ => 0) 1781654400250000 = "2026-06-17T00:00:00.250000+00:00" := by
  decide

section Separator

theorem notMem_padded {c : Char} (letter : c.isDigit = false) (width n : Nat) :
    c ∉ padded width n := by
  intro member
  unfold padded List.leftpad at member
  rw [List.mem_append] at member
  have digit : c.isDigit = true := by
    rcases member with zeros | digits
    · rw [List.eq_of_mem_replicate zeros]
      rfl
    · exact Nat.isDigit_of_mem_toDigits (by decide) (by decide) digits
  rw [letter] at digit
  cases digit

theorem notMem_dateText (year month day : Nat) : 'T' ∉ dateText year month day := by
  have digits := notMem_padded (c := 'T') rfl
  simp [dateText, digits]

theorem notMem_timeText (w : WallClock) : 'T' ∉ timeText w := by
  have digits := notMem_padded (c := 'T') rfl
  simp [timeText, digits]

theorem notMem_trimmedFraction (micros : Nat) : 'T' ∉ trimmedFraction micros := by
  unfold trimmedFraction
  split
  · simp
  · intro member
    rw [List.mem_cons, List.mem_reverse] at member
    have kept := member.resolve_left (by decide)
    have digits := (List.dropWhile_suffix _).subset kept
    exact notMem_padded rfl 6 micros (List.mem_reverse.mp digits)

theorem notMem_shortOffset (offset : Int) : 'T' ∉ shortOffset offset := by
  have digits := notMem_padded (c := 'T') rfl
  have signs : 'T' ≠ sign offset := by
    unfold sign
    split <;> decide
  unfold shortOffset
  dsimp only
  split
  · split <;> simp [digits, signs]
  · simp [digits, signs]

/-- The date and the time are apart by a space in one form, by a `T` in the other. -/
theorem timestamptzOut_ne_isoformat (zone zone' : Int → Int) (instant instant' : Int) :
    timestamptzOut zone instant ≠ isoformat zone' instant' := by
  intro same
  have separator : 'T' ∈ (isoformat zone' instant').toList := by
    simp [isoformat]
  rw [← same] at separator
  have apart : 'T' ∉ (timestamptzOut zone instant).toList := by
    have date := notMem_dateText
    have time := notMem_timeText
    have fraction := notMem_trimmedFraction
    have offset := notMem_shortOffset
    unfold timestamptzOut
    dsimp only
    split <;> simp [date, time, fraction, offset]
  exact apart separator

end Separator

end Foundations.Timestamps
