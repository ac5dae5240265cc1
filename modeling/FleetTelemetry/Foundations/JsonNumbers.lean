import FleetTelemetry.Foundations.JsonRoundTrip
import Mathlib.Data.List.TakeWhile

/-!
# JSON numbers

The grammar of RFC 8259 numbers, and integers in decimal, which it takes.
-/

namespace Foundations.Json

def isDigits (cs : List Char) : Bool := !cs.isEmpty && cs.all Char.isDigit

/-- No leading zero before another digit. -/
def isInt (cs : List Char) : Bool := isDigits cs && (cs.length == 1 || cs.head? != some '0')

def unsigned : List Char → List Char
  | '-' :: cs => cs
  | cs => cs

def isSignedDigits : List Char → Bool
  | '+' :: cs => isDigits cs
  | '-' :: cs => isDigits cs
  | cs => isDigits cs

/-- The optional exponent at the end of a number. -/
def isExp : List Char → Bool
  | [] => true
  | c :: cs => (c == 'e' || c == 'E') && isSignedDigits cs

/-- The optional fraction after the integer part, and what follows it. -/
def isFrac : List Char → Bool
  | '.' :: cs => isDigits (cs.takeWhile Char.isDigit) && isExp (cs.dropWhile Char.isDigit)
  | cs => isExp cs

/-- The `number` production of RFC 8259. -/
def isNumber (literal : List Char) : Bool :=
  isInt ((unsigned literal).takeWhile Char.isDigit) &&
    isFrac ((unsigned literal).dropWhile Char.isDigit)

/-- The literal of a number with a fraction or an exponent. -/
def isFractional (literal : List Char) : Bool :=
  literal.any fun c => c == '.' || c == 'e' || c == 'E'

def intText (n : Int) : List Char :=
  if n < 0 then '-' :: Nat.toDigits 10 n.natAbs else Nat.toDigits 10 n.natAbs

def readInt (literal : List Char) : Int :=
  match literal with
  | '-' :: digits => -(Nat.ofDigitChars 10 digits 0 : Nat)
  | digits => (Nat.ofDigitChars 10 digits 0 : Nat)

section Grammar

theorem isToken_of_isDigit {c : Char} (digit : c.isDigit = true) : isToken c = true := by
  simp [isToken, Char.isAlphanum, digit]

theorem isDigit_of_isDigits {cs : List Char} (digits : isDigits cs = true) :
    ∀ c ∈ cs, c.isDigit = true := by
  simp only [isDigits, Bool.and_eq_true, List.all_eq_true] at digits
  exact digits.2

theorem isToken_of_isDigits {cs : List Char} (digits : isDigits cs = true) :
    ∀ c ∈ cs, isToken c = true := fun c member =>
  isToken_of_isDigit (isDigit_of_isDigits digits c member)

theorem isToken_of_isExp {cs : List Char} (exp : isExp cs = true) :
    ∀ c ∈ cs, isToken c = true := by
  cases cs with
  | nil => simp
  | cons e cs =>
    simp only [isExp, Bool.and_eq_true, Bool.or_eq_true, beq_iff_eq] at exp
    obtain ⟨letter, digits⟩ := exp
    have first : isToken e = true := by
      rcases letter with rfl | rfl <;> rfl
    -- behind the letter, a sign or the first digit, and then digits
    have others : ∀ c ∈ cs, isToken c = true := by
      unfold isSignedDigits at digits
      split at digits
      · exact List.forall_mem_cons.mpr ⟨rfl, isToken_of_isDigits digits⟩
      · exact List.forall_mem_cons.mpr ⟨rfl, isToken_of_isDigits digits⟩
      · exact isToken_of_isDigits digits
    exact List.forall_mem_cons.mpr ⟨first, others⟩

theorem forall_mem_of_split {P : Char → Prop} {p : Char → Bool} {cs : List Char}
    (before : ∀ c ∈ cs.takeWhile p, P c) (after : ∀ c ∈ cs.dropWhile p, P c) :
    ∀ c ∈ cs, P c := by
  intro c member
  rw [← List.takeWhile_append_dropWhile (p := p) (l := cs)] at member
  rcases List.mem_append.mp member with early | late
  · exact before c early
  · exact after c late

theorem isToken_of_isFrac {cs : List Char} (frac : isFrac cs = true) :
    ∀ c ∈ cs, isToken c = true := by
  unfold isFrac at frac
  split at frac
  next rest =>
    rw [Bool.and_eq_true] at frac
    obtain ⟨digits, exp⟩ := frac
    have others := forall_mem_of_split (isToken_of_isDigits digits) (isToken_of_isExp exp)
    exact List.forall_mem_cons.mpr ⟨rfl, others⟩
  · exact isToken_of_isExp frac

theorem isLiteral_of_isNumber {literal : List Char} (is : isNumber literal = true) :
    IsLiteral literal := by
  have digits := is
  simp only [isNumber, isInt, Bool.and_eq_true] at digits
  obtain ⟨⟨int, -⟩, frac⟩ := digits
  have magnitude := forall_mem_of_split (isToken_of_isDigits int) (isToken_of_isFrac frac)
  constructor
  · rintro rfl
    exact absurd is (by decide)
  · unfold unsigned at magnitude
    split at magnitude
    · exact List.forall_mem_cons.mpr ⟨rfl, magnitude⟩
    · exact magnitude
  -- the three literals of other values are no numbers
  · refine ⟨?_, ?_, ?_⟩
    all_goals
      rintro rfl
      exact absurd is (by decide)

end Grammar

section Integers

theorem isDigit_toDigits (n : Nat) : ∀ c ∈ Nat.toDigits 10 n, c.isDigit = true := fun _ =>
  Nat.isDigit_of_mem_toDigits (by decide) (by decide)

theorem isDigits_toDigits (n : Nat) : isDigits (Nat.toDigits 10 n) = true := by
  simp only [isDigits, Bool.and_eq_true, List.all_eq_true, Bool.not_eq_true']
  constructor
  · exact List.isEmpty_eq_false_iff.mpr Nat.toDigits_ne_nil
  · exact isDigit_toDigits n

theorem digitChar_ne_zero : ∀ d < 10, d ≠ 0 → Nat.digitChar d ≠ '0' := by
  decide

theorem head?_toDigits (n : Nat) (positive : n ≠ 0) :
    (Nat.toDigits 10 n).head? ≠ some '0' := by
  -- the first digit of a number is that of its tenth part
  induction n using Nat.strongRecOn with
  | ind n ih =>
    by_cases small : n < 10
    · rw [Nat.toDigits_of_lt_base small, List.head?_cons]
      exact fun same => digitChar_ne_zero n small positive (Option.some.inj same)
    · rw [Nat.toDigits_of_base_le (by decide) (by omega), List.head?_append_of_ne_nil _
        Nat.toDigits_ne_nil]
      exact ih (n / 10) (by omega) (by omega)

theorem isInt_toDigits (n : Nat) : isInt (Nat.toDigits 10 n) = true := by
  rw [isInt, isDigits_toDigits, Bool.true_and]
  by_cases zero : n = 0
  · rw [zero]
    rfl
  · simp [head?_toDigits n zero]

theorem unsigned_intText (n : Int) : unsigned (intText n) = Nat.toDigits 10 n.natAbs := by
  unfold intText
  split
  · rfl
  · unfold unsigned
    split
    next cs same =>
      have digit := isDigit_toDigits n.natAbs '-' (same ▸ List.mem_cons_self)
      exact absurd digit (by decide)
    · rfl

theorem isNumber_intText (n : Int) : isNumber (intText n) = true := by
  have digits := isDigit_toDigits n.natAbs
  rw [isNumber, unsigned_intText, List.takeWhile_eq_self_iff.mpr digits,
    List.dropWhile_eq_nil_iff.mpr digits, isInt_toDigits]
  rfl

theorem isFractional_intText (n : Int) : isFractional (intText n) = false := by
  have others (c) (member : c ∈ Nat.toDigits 10 n.natAbs) :
      ¬(c == '.' || c == 'e' || c == 'E') = true := by
    intro other
    simp only [Bool.or_eq_true, beq_iff_eq] at other
    have digit := isDigit_toDigits n.natAbs c member
    rcases other with (rfl | rfl) | rfl <;> exact absurd digit (by decide)
  unfold isFractional intText
  split
  · rw [List.any_cons, List.any_eq_false.mpr others]
    rfl
  · exact List.any_eq_false.mpr others

theorem readInt_intText (n : Int) : readInt (intText n) = n := by
  unfold intText
  split
  next negative =>
    have whole := Nat.ofDigitChars_ten_toDigits (n := n.natAbs)
    rw [readInt, whole]
    omega
  next positive =>
    unfold readInt
    split
    next digits same =>
      have digit := isDigit_toDigits n.natAbs '-' (same ▸ List.mem_cons_self)
      exact absurd digit (by decide)
    · rw [Nat.ofDigitChars_ten_toDigits]
      omega

end Integers

end Foundations.Json
