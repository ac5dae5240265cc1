import Mathlib.Data.List.Nodup

/-!
# JSON text

Values, a writer that escapes all but printable ASCII, and a reader of the RFC 8259
grammar. Strings are sequences of UTF-16 code units, which is what the escapes spell.
Numbers are a parameter: a writer is given their literals, a reader the literals it takes
and what each of them means.
-/

namespace Foundations

inductive Json (N : Type) where
  | null
  | bool (b : Bool)
  | number (n : N)
  | string (s : List UInt16)
  | array (items : List (Json N))
  | object (members : List (List UInt16 × Json N))
  deriving Repr

namespace Json

/-- The UTF-16 code units of a character. -/
def units (c : Char) : List UInt16 :=
  if c.toNat < 65536 then [UInt16.ofNat c.toNat]
  else [UInt16.ofNat (55296 + (c.toNat - 65536) / 1024),
    UInt16.ofNat (56320 + (c.toNat - 65536) % 1024)]

def ofString (text : String) : List UInt16 := text.toList.flatMap units

section CodeUnits

theorem toNat_valid (c : Char) :
    c.toNat < 55296 ∨ 57343 < c.toNat ∧ c.toNat < 1114112 := c.valid

theorem ofNat_inj {a b : Nat} (small : a < 65536) (small' : b < 65536)
    (same : UInt16.ofNat a = UInt16.ofNat b) : a = b := by
  have number := congrArg UInt16.toNat same
  rwa [UInt16.toNat_ofNat_of_lt' small, UInt16.toNat_ofNat_of_lt' small'] at number

/-- No encoding of a character is the beginning of another one. -/
theorem units_append_inj {a b : Char} {s t : List UInt16}
    (same : units a ++ s = units b ++ t) : a = b ∧ s = t := by
  have valid := toNat_valid a
  have valid' := toNat_valid b
  unfold units at same
  split_ifs at same with small small' small'
  · rw [List.singleton_append, List.singleton_append, List.cons.injEq] at same
    exact ⟨Char.toNat_inj.mp (ofNat_inj small small' same.1), same.2⟩
  · -- the first unit of a pair is no character
    simp only [List.cons_append, List.cons.injEq] at same
    have surrogate := ofNat_inj small (by omega) same.1
    omega
  -- nor the first unit of a character a part of a pair
  · simp only [List.cons_append, List.cons.injEq] at same
    have surrogate := ofNat_inj (by omega) small' same.1
    omega
  · simp only [List.cons_append, List.nil_append, List.cons.injEq] at same
    have high := ofNat_inj (by omega) (by omega) same.1
    have low := ofNat_inj (by omega) (by omega) same.2.1
    exact ⟨Char.toNat_inj.mp (by omega), same.2.2⟩

theorem flatMap_units_inj {a b : List Char} (same : a.flatMap units = b.flatMap units) : a = b := by
  -- a character has a unit at least, so neither text runs out first
  have nonempty (c : Char) : units c ≠ [] := by
    unfold units
    split <;> exact List.cons_ne_nil _ _
  induction a generalizing b with
  | nil =>
    cases b with
    | nil => rfl
    | cons c b => simp [nonempty] at same
  | cons c a ih =>
    cases b with
    | nil => simp [nonempty] at same
    | cons d b =>
      rw [List.flatMap_cons, List.flatMap_cons] at same
      obtain ⟨rfl, rest⟩ := units_append_inj same
      rw [ih rest]

theorem ofString_injective : Function.Injective ofString := fun _ _ same =>
  String.toList_inj.mp (flatMap_units_inj same)

/-- The first half of a surrogate pair, or the second. -/
def isSurrogate (u : UInt16) : Bool := decide (55296 ≤ u.toNat) && decide (u.toNat ≤ 57343)

def isPair (u v : UInt16) : Bool :=
  decide (u.toNat < 56320) && decide (56320 ≤ v.toNat) && decide (v.toNat ≤ 57343)

/-- The characters that code units spell. Half of a pair on its own spells none. -/
def chars : List UInt16 → Option (List Char)
  | [] => some []
  | [u] => if isSurrogate u then none else some [Char.ofNat u.toNat]
  | u :: v :: rest =>
    if isSurrogate u then
      if isPair u v then
        (chars rest).map
          (Char.ofNat (65536 + (u.toNat - 55296) * 1024 + (v.toNat - 56320)) :: ·)
      else none
    else (chars (v :: rest)).map (Char.ofNat u.toNat :: ·)

def toText (s : List UInt16) : Option String := (chars s).map String.ofList

theorem chars_single {u : UInt16} (whole : isSurrogate u = false) (s : List UInt16) :
    chars (u :: s) = (chars s).map (Char.ofNat u.toNat :: ·) := by
  cases s with
  | nil => simp [chars, whole]
  | cons v rest => simp [chars, whole]

theorem chars_units (c : Char) (s : List UInt16) :
    chars (units c ++ s) = (chars s).map (c :: ·) := by
  have valid := toNat_valid c
  unfold units
  split
  -- one unit, which is no surrogate because no character has such a code
  next small =>
    have back : (UInt16.ofNat c.toNat).toNat = c.toNat := UInt16.toNat_ofNat_of_lt' small
    have whole : isSurrogate (UInt16.ofNat c.toNat) = false := by
      rw [isSurrogate, back]
      simp only [Bool.and_eq_false_iff, decide_eq_false_iff_not]
      omega
    rw [List.singleton_append, chars_single whole, back, Char.ofNat_toNat]
  -- two units: the offset from 0x10000 in base 1024, and back
  next large =>
    have high : (UInt16.ofNat (55296 + (c.toNat - 65536) / 1024)).toNat =
        55296 + (c.toNat - 65536) / 1024 :=
      UInt16.toNat_ofNat_of_lt' (show _ < 65536 by omega)
    have low : (UInt16.ofNat (56320 + (c.toNat - 65536) % 1024)).toNat =
        56320 + (c.toNat - 65536) % 1024 :=
      UInt16.toNat_ofNat_of_lt' (show _ < 65536 by omega)
    have first : isSurrogate (UInt16.ofNat (55296 + (c.toNat - 65536) / 1024)) = true := by
      rw [isSurrogate, high]
      simp only [Bool.and_eq_true, decide_eq_true_eq]
      omega
    have pair : isPair (UInt16.ofNat (55296 + (c.toNat - 65536) / 1024))
        (UInt16.ofNat (56320 + (c.toNat - 65536) % 1024)) = true := by
      rw [isPair, high, low]
      simp only [Bool.and_eq_true, decide_eq_true_eq]
      omega
    have code : 65536 + (55296 + (c.toNat - 65536) / 1024 - 55296) * 1024 +
        (56320 + (c.toNat - 65536) % 1024 - 56320) = c.toNat := by omega
    rw [List.cons_append, List.singleton_append, chars, if_pos first, if_pos pair, high, low, code,
      Char.ofNat_toNat]

/-- The text of a string is read back from its code units. -/
theorem toText_ofString (text : String) : toText (ofString text) = some text := by
  have spelled : ∀ cs : List Char, chars (cs.flatMap units) = some cs := by
    intro cs
    induction cs with
    | nil => rfl
    | cons c cs ih => rw [List.flatMap_cons, chars_units, ih, Option.map_some]
  rw [toText, ofString, spelled, Option.map_some, String.ofList_toList]

end CodeUnits

section Objects

variable {V : Type}

/-- A repeated key keeps its place and takes the last value. -/
def insert (key : List UInt16) (v : V) :
    List (List UInt16 × V) → List (List UInt16 × V)
  | [] => [(key, v)]
  | member :: rest =>
    if member.1 = key then (key, v) :: rest else member :: insert key v rest

def collect (members : List (List UInt16 × V)) : List (List UInt16 × V) :=
  members.foldl (fun object member => insert member.1 member.2 object) []

theorem insert_fresh {object : List (List UInt16 × V)} {key : List UInt16} {v : V}
    (fresh : key ∉ object.map Prod.fst) : insert key v object = object ++ [(key, v)] := by
  induction object with
  | nil => rfl
  | cons member rest ih =>
    simp only [List.map_cons, List.mem_cons, not_or] at fresh
    rw [insert, if_neg (Ne.symm fresh.1), ih fresh.2, List.cons_append]

theorem collect_distinct {members : List (List UInt16 × V)}
    (distinct : (members.map Prod.fst).Nodup) : collect members = members := by
  -- the members read so far stay in front
  suffices inserted : ∀ object : List (List UInt16 × V),
      ((object ++ members).map Prod.fst).Nodup →
        members.foldl (fun object member => insert member.1 member.2 object) object =
          object ++ members from inserted [] distinct
  clear distinct
  induction members with
  | nil => simp
  | cons member rest ih =>
    intro object distinct
    have fresh : member.1 ∉ object.map Prod.fst := by
      intro present
      rw [List.map_append, List.map_cons] at distinct
      exact List.disjoint_of_nodup_append distinct present List.mem_cons_self
    rw [List.foldl_cons, insert_fresh fresh, ih _ (by simpa using distinct)]
    simp

end Objects

section Writing

/-- The letter of a two-character escape. -/
def shortEscape (u : UInt16) : Option Char :=
  if u = 34 then some '"'
  else if u = 92 then some '\\'
  else if u = 8 then some 'b'
  else if u = 9 then some 't'
  else if u = 10 then some 'n'
  else if u = 12 then some 'f'
  else if u = 13 then some 'r'
  else none

/-- One code unit in ASCII output. -/
def escape (u : UInt16) : List Char :=
  match shortEscape u with
  | some c => ['\\', c]
  | none =>
    if 32 ≤ u.toNat ∧ u.toNat ≤ 126 then [Char.ofNat u.toNat]
    else ['\\', 'u', Nat.digitChar (u.toNat / 4096), Nat.digitChar (u.toNat / 256 % 16),
      Nat.digitChar (u.toNat / 16 % 16), Nat.digitChar (u.toNat % 16)]

def quote (s : List UInt16) : List Char := '"' :: s.flatMap escape ++ ['"']

def separated : List (List Char) → List Char
  | [] => []
  | [text] => text
  | text :: next :: rest => text ++ ',' :: ' ' :: separated (next :: rest)

def memberText (key : List UInt16) (text : List Char) : List Char :=
  quote key ++ ':' :: ' ' :: text

variable {N : Type} (print : N → List Char)

mutual

def write : Json N → List Char
  | .null => ['n', 'u', 'l', 'l']
  | .bool true => ['t', 'r', 'u', 'e']
  | .bool false => ['f', 'a', 'l', 's', 'e']
  | .number n => print n
  | .string s => quote s
  | .array items => '[' :: separated (writeItems items) ++ [']']
  | .object members => '{' :: separated (writeMembers members) ++ ['}']

def writeItems : List (Json N) → List (List Char)
  | [] => []
  | v :: rest => write v :: writeItems rest

def writeMembers : List (List UInt16 × Json N) → List (List Char)
  | [] => []
  | member :: rest => writeMember member :: writeMembers rest

def writeMember : List UInt16 × Json N → List Char
  | (key, v) => memberText key (write v)

end

end Writing

section Reading

def isSpace (c : Char) : Bool := c == ' ' || c == '\t' || c == '\n' || c == '\r'

def skipSpace (text : List Char) : List Char := text.dropWhile isSpace

def hexValue (c : Char) : Option Nat :=
  if c.isDigit then some (c.toNat - 48)
  else if 97 ≤ c.toNat ∧ c.toNat ≤ 102 then some (c.toNat - 87)
  else if 65 ≤ c.toNat ∧ c.toNat ≤ 70 then some (c.toNat - 55)
  else none

def hexUnit (a b c d : Char) : Option UInt16 := do
  let a ← hexValue a
  let b ← hexValue b
  let c ← hexValue c
  let d ← hexValue d
  return UInt16.ofNat (a * 4096 + b * 256 + c * 16 + d)

def unescape (c : Char) : Option UInt16 :=
  if c = '"' then some 34
  else if c = '\\' then some 92
  else if c = '/' then some 47
  else if c = 'b' then some 8
  else if c = 't' then some 9
  else if c = 'n' then some 10
  else if c = 'f' then some 12
  else if c = 'r' then some 13
  else none

/-- The string whose opening quote has been read. -/
def readString : List Char → Option (List UInt16 × List Char)
  | [] => none
  | '"' :: rest => some ([], rest)
  | '\\' :: 'u' :: a :: b :: c :: d :: rest => do
    let u ← hexUnit a b c d
    let (s, after) ← readString rest
    return (u :: s, after)
  | '\\' :: c :: rest => do
    let u ← unescape c
    let (s, after) ← readString rest
    return (u :: s, after)
  | c :: rest =>
    -- a control character, and a backslash with nothing after it
    if c.toNat < 32 ∨ c = '\\' then none
    else do
      let (s, after) ← readString rest
      return (units c ++ s, after)

section Sequences

variable {V : Type}

/-- One or more elements with commas between them, up to the closing bracket. -/
def readElements (close : Char) (element : List Char → Option (V × List Char)) :
    Nat → List Char → Option (List V × List Char)
  | 0, _ => none
  | fuel + 1, text => do
    let (v, after) ← element text
    match skipSpace after with
    | [] => none
    | c :: rest =>
      if c = close then return ([v], rest)
      else if c = ',' then do
        let (vs, after) ← readElements close element fuel rest
        return (v :: vs, after)
      else none

def readSequence (close : Char) (element : List Char → Option (V × List Char)) (fuel : Nat)
    (text : List Char) : Option (List V × List Char) :=
  match skipSpace text with
  | [] => none
  | c :: rest =>
    if c = close then some ([], rest) else readElements close element fuel (c :: rest)

def readMember (value : List Char → Option (V × List Char)) (text : List Char) :
    Option ((List UInt16 × V) × List Char) :=
  match skipSpace text with
  | '"' :: rest => do
    let (key, after) ← readString rest
    match skipSpace after with
    | ':' :: rest => do
      let (v, after) ← value rest
      return ((key, v), after)
    | _ => none
  | _ => none

end Sequences

/-- The characters of numbers and of the three names. -/
def isToken (c : Char) : Bool := c.isAlphanum || c == '+' || c == '-' || c == '.'

variable {M : Type} (number : List Char → Option M)

def scalar (token : List Char) : Option (Json M) :=
  if token = ['n', 'u', 'l', 'l'] then some .null
  else if token = ['t', 'r', 'u', 'e'] then some (.bool true)
  else if token = ['f', 'a', 'l', 's', 'e'] then some (.bool false)
  else (number token).map .number

def readValue : Nat → List Char → Option (Json M × List Char)
  | 0, _ => none
  | fuel + 1, text =>
    match skipSpace text with
    | [] => none
    | c :: rest =>
      if c = '"' then (readString rest).map fun (s, after) => (.string s, after)
      else if c = '[' then
        (readSequence ']' (readValue fuel) fuel rest).map fun (vs, after) => (.array vs, after)
      else if c = '{' then
        (readSequence '}' (readMember (readValue fuel)) fuel rest).map
          fun (members, after) => (.object (collect members), after)
      else
        (scalar number ((c :: rest).takeWhile isToken)).map
          fun v => (v, (c :: rest).dropWhile isToken)

/-- A whole text. Nesting and sequences are shorter than the text that spells them. -/
def read (text : List Char) : Option (Json M) :=
  match readValue number (text.length + 1) text with
  | some (v, after) => if skipSpace after = [] then some v else none
  | none => none

end Reading

end Json

end Foundations
