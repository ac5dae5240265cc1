import Mathlib.Data.Nat.Basic
import Mathlib.Tactic.Ring
import Mathlib.Tactic.Linarith

/-!
# Network byte order

Fixed-width integers in two's complement, most significant byte first, and text in UTF-8,
each with its round trip.
-/

namespace Foundations.Wire

/-- The lowest `k` bytes of a number in network order. -/
def bigEndian : Nat → Nat → List UInt8
  | 0, _ => []
  | k + 1, n => UInt8.ofNat (n / 256 ^ k) :: bigEndian k n

def magnitude : List UInt8 → Nat
  | [] => 0
  | b :: bs => b.toNat * 256 ^ bs.length + magnitude bs

@[simp] theorem length_bigEndian (k n : Nat) : (bigEndian k n).length = k := by
  induction k with
  | zero => rfl
  | succ k ih => simp [bigEndian, ih]

theorem magnitude_bigEndian (k n : Nat) : magnitude (bigEndian k n) = n % 256 ^ k := by
  induction k with
  | zero => simp [bigEndian, magnitude, Nat.mod_one]
  | succ k ih =>
    have digit : (UInt8.ofNat (n / 256 ^ k)).toNat = n / 256 ^ k % 256 := by simp
    rw [bigEndian, magnitude, length_bigEndian, ih, digit, Nat.pow_succ, Nat.mod_mul]
    rw [Nat.mul_comm, Nat.add_comm]

/-- The values of a signed field of `k` bytes. -/
def InRange (k : Nat) (v : Int) : Prop := -256 ^ k ≤ 2 * v ∧ 2 * v < 256 ^ k

instance (k : Nat) (v : Int) : Decidable (InRange k v) :=
  inferInstanceAs (Decidable (_ ∧ _))

def encodeInt (k : Nat) (v : Int) : List UInt8 := bigEndian k (v % 256 ^ k).toNat

def decodeInt (bs : List UInt8) : Int :=
  if 2 * magnitude bs < 256 ^ bs.length then magnitude bs else magnitude bs - 256 ^ bs.length

@[simp] theorem length_encodeInt (k : Nat) (v : Int) : (encodeInt k v).length = k :=
  length_bigEndian k _

theorem decodeInt_encodeInt (k : Nat) (v : Int) (range : InRange k v) :
    decodeInt (encodeInt k v) = v := by
  obtain ⟨lower, upper⟩ := range
  have positive : (0 : Int) < 256 ^ k := by positivity
  have residue := Int.emod_nonneg v positive.ne'
  have bounded := Int.emod_lt_of_pos v positive
  have value : ((magnitude (encodeInt k v) : Nat) : Int) = v % 256 ^ k := by
    rw [encodeInt, magnitude_bigEndian]
    push_cast
    rw [Int.toNat_of_nonneg residue]
    exact Int.emod_eq_of_lt residue bounded
  have test : 2 * magnitude (encodeInt k v) < 256 ^ k ↔ 2 * (v % 256 ^ k) < 256 ^ k := by
    rw [← value]
    exact_mod_cast Iff.rfl
  rw [decodeInt, length_encodeInt]
  -- a negative value is sent as its residue and comes back past the sign bit
  by_cases negative : v < 0
  · have wrapped : v % 256 ^ k = v + 256 ^ k := by
      rw [← Int.add_emod_right]
      exact Int.emod_eq_of_lt (by omega) (by omega)
    rw [if_neg (by rw [test]; omega), value, wrapped]
    omega
  · have plain : v % 256 ^ k = v := Int.emod_eq_of_lt (by omega) (by omega)
    rw [if_pos (by rw [test]; omega), value, plain]

theorem magnitude_lt (bs : List UInt8) : magnitude bs < 256 ^ bs.length := by
  induction bs with
  | nil => simp [magnitude]
  | cons b bs ih =>
    have digit : b.toNat + 1 ≤ 256 := b.toNat_lt
    calc magnitude (b :: bs) = b.toNat * 256 ^ bs.length + magnitude bs := rfl
      _ < (b.toNat + 1) * 256 ^ bs.length := by rw [Nat.succ_mul]; omega
      _ ≤ 256 * 256 ^ bs.length := Nat.mul_le_mul_right _ digit
      _ = 256 ^ (b :: bs).length := by rw [List.length_cons, Nat.pow_succ, Nat.mul_comm]

theorem inRange_decodeInt (bs : List UInt8) : InRange bs.length (decodeInt bs) := by
  have bound : ((magnitude bs : Nat) : Int) < 256 ^ bs.length := by exact_mod_cast magnitude_lt bs
  unfold InRange decodeInt
  split
  next small =>
    have small' : 2 * ((magnitude bs : Nat) : Int) < 256 ^ bs.length := by exact_mod_cast small
    omega
  next large =>
    have large' : ¬2 * ((magnitude bs : Nat) : Int) < 256 ^ bs.length := by exact_mod_cast large
    omega

/-- A signed integer that fits its field. -/
structure WireInt (k : Nat) where
  val : Int
  range : InRange k val

def WireInt.encode {k : Nat} (v : WireInt k) : List UInt8 := encodeInt k v.val

/-- An unsigned integer of `k` bytes as the signed field reads it. -/
def WireInt.ofUnsigned (k n : Nat) (fits : n < 256 ^ k) : WireInt k :=
  ⟨if 2 * n < 256 ^ k then n else n - 256 ^ k, by
    have fits' : (n : Int) < 256 ^ k := by exact_mod_cast fits
    unfold InRange
    split
    next small =>
      have small' : 2 * (n : Int) < 256 ^ k := by exact_mod_cast small
      omega
    next large =>
      have large' : ¬2 * (n : Int) < 256 ^ k := by exact_mod_cast large
      omega⟩

/-- It is sent as its own bytes. -/
theorem WireInt.encode_ofUnsigned (k n : Nat) (fits : n < 256 ^ k) :
    (ofUnsigned k n fits).encode = bigEndian k n := by
  have fits' : (n : Int) < 256 ^ k := by exact_mod_cast fits
  have residue : (n : Int) % 256 ^ k = n := Int.emod_eq_of_lt (Int.natCast_nonneg n) fits'
  have same : (ofUnsigned k n fits).val % 256 ^ k = n := by
    unfold ofUnsigned
    dsimp only
    split
    · exact residue
    · rw [Int.sub_emod_right]
      exact residue
  rw [encode, encodeInt, same, Int.toNat_natCast]

def utf8 (text : String) : List UInt8 := text.toByteArray.data.toList

def decodeUtf8 (bs : List UInt8) : Option String := String.fromUTF8? ⟨bs.toArray⟩

theorem decodeUtf8_utf8 (text : String) : decodeUtf8 (utf8 text) = some text := by
  simp [decodeUtf8, utf8, String.fromUTF8?, String.fromUTF8, text.isValidUTF8]

theorem utf8_of_decodeUtf8 {bs : List UInt8} {text : String} (decoded : decodeUtf8 bs = some text) :
    utf8 text = bs := by
  unfold decodeUtf8 String.fromUTF8? at decoded
  split at decoded
  · cases decoded
    rfl
  · cases decoded

end Foundations.Wire
