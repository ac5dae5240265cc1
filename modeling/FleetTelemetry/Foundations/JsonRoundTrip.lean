import FleetTelemetry.Foundations.Json

/-!
# Reading what was written

A reader makes of a written value what it makes of each of its numbers: the same value with
every number replaced by the meaning of its literal, or nothing as soon as one literal is
not taken.
-/

namespace Foundations.Json

section Strings

theorem hexValue_digitChar : ∀ d < 16, hexValue (Nat.digitChar d) = some d := by
  decide

theorem hexUnit_digits (u : UInt16) :
    hexUnit (Nat.digitChar (u.toNat / 4096)) (Nat.digitChar (u.toNat / 256 % 16))
      (Nat.digitChar (u.toNat / 16 % 16)) (Nat.digitChar (u.toNat % 16)) = some u := by
  have small := u.toNat_lt
  have whole : u.toNat / 4096 * 4096 + u.toNat / 256 % 16 * 256 + u.toNat / 16 % 16 * 16 +
      u.toNat % 16 = u.toNat := by omega
  have first := hexValue_digitChar (u.toNat / 4096) (by omega)
  have second := hexValue_digitChar (u.toNat / 256 % 16) (by omega)
  have third := hexValue_digitChar (u.toNat / 16 % 16) (by omega)
  have fourth := hexValue_digitChar (u.toNat % 16) (by omega)
  simp only [hexUnit, first, second, third, fourth, Option.bind_eq_bind, Option.bind_some, whole,
    UInt16.ofNat_toNat]
  rfl

theorem toNat_ofNat {n : Nat} (small : n ≤ 126) : (Char.ofNat n).toNat = n := by
  have valid : n.isValidChar := Or.inl (by omega)
  rw [Char.ofNat, dif_pos valid]
  rfl

/-- A printable character is its own code unit. -/
theorem units_ofNat {u : UInt16} (small : u.toNat ≤ 126) : units (Char.ofNat u.toNat) = [u] := by
  rw [units, toNat_ofNat small, if_pos (by omega), UInt16.ofNat_toNat]

theorem unescape_shortEscape {u : UInt16} {c : Char} (short : shortEscape u = some c) :
    unescape c = some u ∧ c ≠ 'u' := by
  unfold shortEscape at short
  split_ifs at short
  all_goals
    subst_vars
    cases short
    decide

theorem shortEscape_plain {u : UInt16} (long : shortEscape u = none) : u ≠ 34 ∧ u ≠ 92 := by
  constructor
  all_goals
    rintro rfl
    cases long

theorem readString_short {c : Char} {u : UInt16} (short : unescape c = some u) (apart : c ≠ 'u')
    (rest : List Char) : readString ('\\' :: c :: rest) =
      (readString rest).map fun (s, after) => (u :: s, after) := by
  rw [readString.eq_4 c rest (fun _ _ _ _ _ same => absurd same apart), short]
  cases readString rest <;> rfl

theorem readString_plain {c : Char} (printable : 32 ≤ c.toNat) (quote : c ≠ '"')
    (slash : c ≠ '\\') (rest : List Char) : readString (c :: rest) =
      (readString rest).map fun (s, after) => (units c ++ s, after) := by
  have taken : ¬(c.toNat < 32 ∨ c = '\\') := by
    rintro (control | same)
    · omega
    · exact slash same
  rw [readString.eq_5 c rest quote (fun _ _ _ _ _ same => absurd same slash)
    (fun _ _ same => absurd same slash), if_neg taken]
  cases readString rest <;> rfl

theorem readString_escape (u : UInt16) (rest : List Char) :
    readString (escape u ++ rest) =
      (readString rest).map fun (s, after) => (u :: s, after) := by
  unfold escape
  split
  next c short =>
    obtain ⟨back, apart⟩ := unescape_shortEscape short
    exact readString_short back apart rest
  next long =>
    split
    next printable =>
      obtain ⟨quote, slash⟩ := shortEscape_plain long
      have same := toNat_ofNat printable.2
      -- a printable character is read as itself unless it is the quote or the backslash
      have char_ne : ∀ n : UInt16, u ≠ n → n.toNat ≤ 126 →
          Char.ofNat u.toNat ≠ Char.ofNat n.toNat := by
        intro n apart small equal
        have number := congrArg Char.toNat equal
        rw [same, toNat_ofNat small] at number
        exact apart (UInt16.toNat_inj.mp number)
      have plain := readString_plain (by omega) (char_ne 34 quote (by decide))
        (char_ne 92 slash (by decide)) rest
      rw [units_ofNat printable.2] at plain
      exact plain
    next unprintable =>
      have unit := hexUnit_digits u
      simp only [List.cons_append, List.nil_append, readString, unit, Option.bind_eq_bind,
        Option.bind_some]
      cases readString rest <;> rfl

theorem readString_quote (s : List UInt16) (rest : List Char) :
    readString (s.flatMap escape ++ '"' :: rest) = some (s, rest) := by
  induction s with
  | nil => rfl
  | cons u s ih =>
    rw [List.flatMap_cons, List.append_assoc, readString_escape, ih]
    rfl

end Strings

section Tokens

/-- What may follow a number or a name without being read as part of it. -/
def Delimited (rest : List Char) : Prop := ∀ c ∈ rest.head?, isToken c = false

theorem Delimited.cons {c : Char} (apart : isToken c = false) (rest : List Char) :
    Delimited (c :: rest) := by
  intro first same
  cases same
  exact apart

theorem takeWhile_token {token rest : List Char} (tokens : ∀ c ∈ token, isToken c = true)
    (delimited : Delimited rest) : (token ++ rest).takeWhile isToken = token := by
  rw [List.takeWhile_append_of_pos tokens]
  cases rest with
  | nil => simp
  | cons c rest => rw [List.takeWhile_cons_of_neg (by simp [delimited c rfl]), List.append_nil]

theorem dropWhile_token {token rest : List Char} (tokens : ∀ c ∈ token, isToken c = true)
    (delimited : Delimited rest) : (token ++ rest).dropWhile isToken = rest := by
  rw [List.dropWhile_append_of_pos tokens]
  cases rest with
  | nil => rfl
  | cons c rest => rw [List.dropWhile_cons_of_neg (by simp [delimited c rfl])]

/-- The characters a value starts with. -/
def isOpening (c : Char) : Bool := isToken c || c == '"' || c == '[' || c == '{'

theorem not_isSpace {c : Char} (opening : isOpening c = true) : isSpace c = false := by
  by_contra space
  simp only [isSpace, Bool.not_eq_false, Bool.or_eq_true, beq_iff_eq] at space
  obtain ((rfl | rfl) | rfl) | rfl := space <;> cases opening

theorem skipSpace_opening {c : Char} (opening : isOpening c = true) (rest : List Char) :
    skipSpace (c :: rest) = c :: rest := by
  rw [skipSpace, List.dropWhile_cons_of_neg (by simp [not_isSpace opening])]

variable {M : Type} {number : List Char → Option M}

theorem readValue_token {c : Char} {token rest : List Char}
    (tokens : ∀ d ∈ c :: token, isToken d = true) (delimited : Delimited rest) (fuel : Nat) :
    readValue number (fuel + 1) (c :: token ++ rest) =
      (scalar number (c :: token)).map fun v => (v, rest) := by
  have first : isToken c = true := tokens c List.mem_cons_self
  have opening : isOpening c = true := by simp [isOpening, first]
  have apart : ∀ d : Char, isToken d = false → c ≠ d := by
    rintro d other rfl
    rw [first] at other
    cases other
  rw [List.cons_append, readValue, skipSpace_opening opening]
  simp only [if_neg (apart '"' rfl), if_neg (apart '[' rfl), if_neg (apart '{' rfl)]
  rw [← List.cons_append, takeWhile_token tokens delimited, dropWhile_token tokens delimited]

/-- Leading space makes no difference. -/
theorem readValue_space (fuel : Nat) (text : List Char) :
    readValue number fuel (' ' :: text) = readValue number fuel text := by
  cases fuel with
  | zero => rfl
  | succ fuel => rfl

end Tokens

section Sequences

variable {A V : Type}

theorem readMember_memberText {value : List Char → Option (V × List Char)}
    (space : ∀ text, value (' ' :: text) = value text) (key : List UInt16)
    (text rest : List Char) :
    readMember value (memberText key text ++ rest) =
      (value (text ++ rest)).map fun (v, after) => ((key, v), after) := by
  have quoted : memberText key text ++ rest =
      '"' :: (key.flatMap escape ++ '"' :: ':' :: ' ' :: (text ++ rest)) := by
    simp [memberText, quote]
  have colon (after : List Char) : skipSpace (':' :: after) = ':' :: after := rfl
  rw [quoted, readMember, skipSpace_opening rfl]
  simp only [readString_quote, Option.bind_eq_bind, Option.bind_some, colon, space]
  cases value (text ++ rest) <;> rfl

theorem readMember_space (value : List Char → Option (V × List Char)) (text : List Char) :
    readMember value (' ' :: text) = readMember value text := rfl

theorem length_le_separated {texts : List (List Char)} {text : List Char}
    (member : text ∈ texts) : text.length ≤ (separated texts).length := by
  induction texts with
  | nil => cases member
  | cons first rest ih =>
    cases rest with
    | nil =>
      rw [List.mem_singleton.mp member]
      exact Nat.le_refl _
    | cons second rest =>
      rw [separated, List.length_append, List.length_cons, List.length_cons]
      rcases List.mem_cons.mp member with rfl | later
      · omega
      · have bound := ih later
        omega

theorem length_le_length_separated (texts : List (List Char)) :
    texts.length ≤ (separated texts).length + 1 := by
  induction texts with
  | nil => simp
  | cons first rest ih =>
    cases rest with
    | nil => simp
    | cons second rest =>
      rw [separated, List.length_append]
      simp only [List.length_cons] at ih ⊢
      omega

variable {close : Char} {element : List Char → Option (V × List Char)}

theorem readElements_refused {text : List Char} (refused : element text = none) (fuel : Nat) :
    readElements close element (fuel + 1) text = none := by
  rw [readElements, refused]
  rfl

theorem readElements_last (space : isSpace close = false) {text rest : List Char} {v : V}
    (last : element text = some (v, close :: rest)) (fuel : Nat) :
    readElements close element (fuel + 1) text = some ([v], rest) := by
  have stop : skipSpace (close :: rest) = close :: rest := by
    rw [skipSpace, List.dropWhile_cons_of_neg (by simp [space])]
  simp only [readElements, last, Option.bind_eq_bind, Option.bind_some, stop, if_true]
  rfl

theorem readElements_comma (apart : close ≠ ',') {text rest : List Char} {v : V}
    (head : element text = some (v, ',' :: rest)) (fuel : Nat) :
    readElements close element (fuel + 1) text =
      (readElements close element fuel rest).map fun (vs, after) => (v :: vs, after) := by
  have comma : skipSpace (',' :: rest) = ',' :: rest := rfl
  simp only [readElements, head, Option.bind_eq_bind, Option.bind_some, comma,
    if_neg (Ne.symm apart), if_true]
  cases readElements close element fuel rest <;> rfl

theorem readElements_space (lead : ∀ text, element (' ' :: text) = element text) (fuel : Nat)
    (text : List Char) :
    readElements close element fuel (' ' :: text) = readElements close element fuel text := by
  cases fuel with
  | zero => rfl
  | succ fuel => rw [readElements, readElements, lead]

variable {text : A → List Char} {value : A → Option V}

/-- A written sequence is read element by element, and fails with its first bad element. -/
theorem readElements_separated (space : isSpace close = false) (apart : close ≠ ',')
    (outside : isToken close = false) (lead : ∀ text, element (' ' :: text) = element text)
    (x : A) (xs : List A)
    (each : ∀ y ∈ x :: xs, ∀ rest, Delimited rest →
      element (text y ++ rest) = (value y).map fun v => (v, rest))
    (fuel : Nat) (enough : xs.length < fuel) (rest : List Char) :
    readElements close element fuel (separated ((x :: xs).map text) ++ close :: rest) =
      ((x :: xs).mapM value).map fun vs => (vs, rest) := by
  induction xs generalizing x fuel with
  | nil =>
    obtain ⟨fuel, rfl⟩ := Nat.exists_eq_add_of_lt enough
    have head := each x List.mem_cons_self (close :: rest) (.cons outside rest)
    rw [List.map_cons, List.map_nil, separated, List.mapM_cons]
    cases meaning : value x with
    | none =>
      rw [meaning] at head
      exact readElements_refused head _
    | some v =>
      rw [meaning] at head
      exact readElements_last space head _
  | cons y ys ih =>
    obtain ⟨fuel, rfl⟩ := Nat.exists_eq_add_of_lt enough
    have tail := ih y (fun z member => each z (List.mem_cons_of_mem _ member))
      ((y :: ys).length + fuel) (by simp only [List.length_cons]; omega)
    have head := each x List.mem_cons_self
      (',' :: ' ' :: (separated ((y :: ys).map text) ++ close :: rest)) (.cons rfl _)
    -- one element, the separator of `dumps`, and the text of the others
    have split : separated ((x :: y :: ys).map text) ++ close :: rest =
        text x ++ ',' :: ' ' :: (separated ((y :: ys).map text) ++ close :: rest) := by
      simp [separated]
    rw [split, List.mapM_cons]
    cases meaning : value x with
    | none =>
      rw [meaning] at head
      exact readElements_refused head _
    | some v =>
      rw [meaning] at head
      rw [readElements_comma apart head, readElements_space lead, tail]
      cases (y :: ys).mapM value <;> rfl

theorem readSequence_separated (close : Char) {element : List Char → Option (V × List Char)}
    (space : isSpace close = false) (apart : close ≠ ',')
    (outside : isToken close = false) (shut : isOpening close = false)
    (lead : ∀ text, element (' ' :: text) = element text) (xs : List A)
    (start : ∀ y ∈ xs, ∃ c after, text y = c :: after ∧ isOpening c = true)
    (each : ∀ y ∈ xs, ∀ rest, Delimited rest →
      element (text y ++ rest) = (value y).map fun v => (v, rest))
    (fuel : Nat) (enough : xs.length ≤ fuel) (rest : List Char) :
    readSequence close element fuel (separated (xs.map text) ++ close :: rest) =
      (xs.mapM value).map fun vs => (vs, rest) := by
  cases xs with
  | nil =>
    have stop : skipSpace (close :: rest) = close :: rest := by
      rw [skipSpace, List.dropWhile_cons_of_neg (by simp [space])]
    simp [readSequence, separated, stop]
  | cons x xs =>
    obtain ⟨c, after, same, opening⟩ := start x List.mem_cons_self
    have begins : ∃ later, separated ((x :: xs).map text) ++ close :: rest = c :: later := by
      cases xs with
      | nil => exact ⟨after ++ close :: rest, by simp [separated, same]⟩
      | cons y ys => simp [separated, same]
    obtain ⟨later, whole⟩ := begins
    have read := readElements_separated space apart outside lead x xs each fuel enough rest
    -- the text of an element opens a value, so the sequence is not taken for an empty one
    have other : c ≠ close := by
      rintro rfl
      rw [opening] at shut
      cases shut
    rw [whole] at read ⊢
    rw [readSequence, skipSpace_opening opening]
    simp only [if_neg other]
    exact read

end Sequences

section Values

variable {N M : Type}

mutual

/-- The value with each number replaced by its meaning, if they all have one. -/
def traverse (g : N → Option M) : Json N → Option (Json M)
  | .null => some .null
  | .bool b => some (.bool b)
  | .number n => (g n).map .number
  | .string s => some (.string s)
  | .array items => (traverseItems g items).map .array
  | .object members => (traverseMembers g members).map .object

def traverseItems (g : N → Option M) : List (Json N) → Option (List (Json M))
  | [] => some []
  | v :: rest => do
    let u ← traverse g v
    let us ← traverseItems g rest
    return u :: us

def traverseMembers (g : N → Option M) :
    List (List UInt16 × Json N) → Option (List (List UInt16 × Json M))
  | [] => some []
  | member :: rest => do
    let m ← traverseMember g member
    let ms ← traverseMembers g rest
    return m :: ms

def traverseMember (g : N → Option M) :
    List UInt16 × Json N → Option (List UInt16 × Json M)
  | (key, v) => (traverse g v).map fun u => (key, u)

end

theorem traverseItems_eq (g : N → Option M) (items : List (Json N)) :
    traverseItems g items = items.mapM (traverse g) := by
  induction items with
  | nil => rfl
  | cons v rest ih => rw [traverseItems, List.mapM_cons, ih]

theorem traverseMembers_eq (g : N → Option M) (members : List (List UInt16 × Json N)) :
    traverseMembers g members = members.mapM (traverseMember g) := by
  induction members with
  | nil => rfl
  | cons member rest ih => rw [traverseMembers, List.mapM_cons, ih]

theorem keys_traverseMembers {g : N → Option M} {members : List (List UInt16 × Json N)}
    {ms : List (List UInt16 × Json M)} (read : traverseMembers g members = some ms) :
    ms.map Prod.fst = members.map Prod.fst := by
  induction members generalizing ms with
  | nil =>
    cases read
    rfl
  | cons member rest ih =>
    obtain ⟨key, v⟩ := member
    simp only [traverseMembers, Option.bind_eq_bind, Option.bind_eq_some_iff, traverseMember,
      Option.map_eq_some_iff] at read
    obtain ⟨_, ⟨u, _, rfl⟩, others, later, same⟩ := read
    cases same
    rw [List.map_cons, List.map_cons, ih later]

variable (print : N → List Char)

theorem writeItems_eq (items : List (Json N)) :
    writeItems print items = items.map (write print) := by
  induction items with
  | nil => rfl
  | cons v rest ih => rw [writeItems, List.map_cons, ih]

theorem writeMembers_eq (members : List (List UInt16 × Json N)) :
    writeMembers print members = members.map (writeMember print) := by
  induction members with
  | nil => rfl
  | cons member rest ih => rw [writeMembers, List.map_cons, ih]

/-- Every number meets the condition, and no object repeats a key. -/
inductive WellFormed (P : N → Prop) : Json N → Prop where
  | null : WellFormed P .null
  | bool (b : Bool) : WellFormed P (.bool b)
  | number {n : N} (meets : P n) : WellFormed P (.number n)
  | string (s : List UInt16) : WellFormed P (.string s)
  | array {items : List (Json N)} (each : ∀ v ∈ items, WellFormed P v) :
    WellFormed P (.array items)
  | object {members : List (List UInt16 × Json N)} (distinct : (members.map Prod.fst).Nodup)
    (each : ∀ member ∈ members, WellFormed P member.2) : WellFormed P (.object members)

theorem WellFormed.mono {P Q : N → Prop} (weaker : ∀ n, P n → Q n) {v : Json N}
    (wf : v.WellFormed P) : v.WellFormed Q := by
  induction wf with
  | null => exact .null
  | bool b => exact .bool b
  | number meets => exact .number (weaker _ meets)
  | string s => exact .string s
  | array _ ih => exact .array ih
  | object distinct _ ih => exact .object distinct ih

/-- A literal that a reader takes whole, and for none of the three names. -/
structure IsLiteral (literal : List Char) : Prop where
  nonempty : literal ≠ []
  tokens : ∀ c ∈ literal, isToken c = true
  unnamed : literal ≠ ['n', 'u', 'l', 'l'] ∧ literal ≠ ['t', 'r', 'u', 'e'] ∧
    literal ≠ ['f', 'a', 'l', 's', 'e']

theorem scalar_literal {number : List Char → Option M} {literal : List Char}
    (is : IsLiteral literal) : scalar number literal = (number literal).map .number := by
  obtain ⟨null, true, false⟩ := is.unnamed
  rw [scalar, if_neg null, if_neg true, if_neg false]

theorem write_opening {v : Json N} (wf : v.WellFormed fun n => IsLiteral (print n)) :
    ∃ c after, write print v = c :: after ∧ isOpening c = true := by
  cases wf with
  | null => exact ⟨_, _, rfl, rfl⟩
  | bool b => cases b <;> exact ⟨_, _, rfl, rfl⟩
  | @number n literal =>
    obtain ⟨c, after, same⟩ := List.exists_cons_of_ne_nil literal.nonempty
    have token := literal.tokens c (same ▸ List.mem_cons_self)
    exact ⟨c, after, same, by simp [isOpening, token]⟩
  | string s => exact ⟨_, _, rfl, rfl⟩
  | array each => exact ⟨_, _, rfl, rfl⟩
  | object distinct each => exact ⟨_, _, rfl, rfl⟩

theorem writeMember_opening (member : List UInt16 × Json N) :
    ∃ c after, writeMember print member = c :: after ∧ isOpening c = true := by
  obtain ⟨key, v⟩ := member
  exact ⟨'"', _, rfl, rfl⟩

theorem length_write_item {items : List (Json N)} {v : Json N} (member : v ∈ items) :
    (write print v).length + 2 ≤ (write print (.array items)).length := by
  have bound := length_le_separated (List.mem_map_of_mem (f := write print) member)
  simp only [write, writeItems_eq, List.cons_append, List.length_cons, List.length_append,
    List.length_nil]
  omega

theorem length_write_member {members : List (List UInt16 × Json N)}
    {member : List UInt16 × Json N} (present : member ∈ members) :
    (write print member.2).length + 2 ≤ (write print (.object members)).length := by
  have bound := length_le_separated (List.mem_map_of_mem (f := writeMember print) present)
  have inner : (write print member.2).length ≤ (writeMember print member).length := by
    obtain ⟨key, v⟩ := member
    simp only [writeMember, memberText, List.length_append, List.length_cons]
    omega
  simp only [write, writeMembers_eq, List.cons_append, List.length_cons, List.length_append,
    List.length_nil]
  omega

theorem length_le_write_array (items : List (Json N)) :
    items.length < (write print (.array items)).length := by
  have count := length_le_length_separated (items.map (write print))
  simp only [write, writeItems_eq, List.cons_append, List.length_cons, List.length_append,
    List.length_nil, List.length_map] at count ⊢
  omega

theorem length_le_write_object (members : List (List UInt16 × Json N)) :
    members.length < (write print (.object members)).length := by
  have count := length_le_length_separated (members.map (writeMember print))
  simp only [write, writeMembers_eq, List.cons_append, List.length_cons, List.length_append,
    List.length_nil, List.length_map] at count ⊢
  omega

variable {print} (number : List Char → Option M)

theorem readValue_literal {n : N} (literal : IsLiteral (print n)) (fuel : Nat)
    {rest : List Char} (delimited : Delimited rest) :
    readValue number (fuel + 1) (print n ++ rest) =
      (number (print n)).map fun m => (.number m, rest) := by
  obtain ⟨c, after, same⟩ := List.exists_cons_of_ne_nil literal.nonempty
  have tokens := literal.tokens
  have meaning : scalar number (print n) = (number (print n)).map .number :=
    scalar_literal literal
  rw [same] at tokens meaning ⊢
  rw [readValue_token tokens delimited, meaning, Option.map_map]
  rfl

theorem readValue_quote (s : List UInt16) (fuel : Nat) (rest : List Char) :
    readValue number (fuel + 1) (quote s ++ rest) = some (.string s, rest) := by
  have text : quote s ++ rest = '"' :: (s.flatMap escape ++ '"' :: rest) := by
    simp [quote]
  rw [text, readValue, skipSpace_opening rfl]
  simp only [if_true, readString_quote]
  rfl

theorem readValue_array {items : List (Json N)} {fuel : Nat}
    (start : ∀ v ∈ items, ∃ c after, write print v = c :: after ∧ isOpening c = true)
    (each : ∀ v ∈ items, ∀ rest, Delimited rest → readValue number fuel (write print v ++ rest) =
      (v.traverse (number ∘ print)).map fun u => (u, rest))
    (enough : items.length ≤ fuel) (rest : List Char) :
    readValue number (fuel + 1) (write print (.array items) ++ rest) =
      (traverse (number ∘ print) (.array items)).map fun u => (u, rest) := by
  -- the items stand between the brackets, each but the first behind its comma
  have text : write print (.array items) ++ rest =
      '[' :: (separated (items.map (write print)) ++ ']' :: rest) := by
    simp [write, writeItems_eq]
  have inner := readSequence_separated ']' rfl (by decide) rfl rfl (readValue_space fuel) items
    start each fuel enough rest
  have quote : ('[' : Char) ≠ '"' := by decide
  rw [text, readValue, skipSpace_opening rfl, traverse, traverseItems_eq]
  simp only [if_true, inner, if_neg quote]
  cases items.mapM (traverse (number ∘ print)) <;> rfl

theorem readValue_object {members : List (List UInt16 × Json N)} {fuel : Nat}
    (distinct : (members.map Prod.fst).Nodup)
    (each : ∀ member ∈ members, ∀ rest, Delimited rest →
      readValue number fuel (write print member.2 ++ rest) =
        (member.2.traverse (number ∘ print)).map fun u => (u, rest))
    (enough : members.length ≤ fuel) (rest : List Char) :
    readValue number (fuel + 1) (write print (.object members) ++ rest) =
      (traverse (number ∘ print) (.object members)).map fun u => (u, rest) := by
  have text : write print (.object members) ++ rest =
      '{' :: (separated (members.map (writeMember print)) ++ '}' :: rest) := by
    simp [write, writeMembers_eq]
  have item (member) (present : member ∈ members) (rest) (delimited : Delimited rest) :
      readMember (readValue number fuel) (writeMember print member ++ rest) =
        (traverseMember (number ∘ print) member).map fun m => (m, rest) := by
    have value := each member present rest delimited
    obtain ⟨key, v⟩ := member
    rw [writeMember, readMember_memberText (readValue_space fuel), value, traverseMember]
    cases traverse (number ∘ print) v <;> rfl
  have inner := readSequence_separated '}' rfl (by decide) rfl rfl (readMember_space _) members
    (fun member _ => writeMember_opening print member) item fuel enough rest
  have quote : ('{' : Char) ≠ '"' := by decide
  have bracket : ('{' : Char) ≠ '[' := by decide
  rw [text, readValue, skipSpace_opening rfl, traverse]
  simp only [if_true, inner, if_neg quote, if_neg bracket]
  rw [← traverseMembers_eq]
  cases read : traverseMembers (number ∘ print) members with
  | none => rfl
  | some ms =>
    -- the keys are those that were written, so collecting them changes nothing
    have kept := keys_traverseMembers read
    simp only [Option.map_some, collect_distinct (kept ▸ distinct)]

theorem readValue_write {v : Json N} (wf : v.WellFormed fun n => IsLiteral (print n)) :
    ∀ (fuel : Nat) (_ : (write print v).length < fuel) (rest : List Char) (_ : Delimited rest),
      readValue number fuel (write print v ++ rest) =
        (v.traverse (number ∘ print)).map fun u => (u, rest) := by
  induction wf with
  | null =>
    intro fuel enough rest delimited
    obtain ⟨fuel, rfl⟩ := Nat.exists_eq_add_of_lt enough
    exact readValue_token (List.all_eq_true.mp rfl) delimited _
  | bool b =>
    intro fuel enough rest delimited
    obtain ⟨fuel, rfl⟩ := Nat.exists_eq_add_of_lt enough
    cases b with
    | true => exact readValue_token (List.all_eq_true.mp rfl) delimited _
    | false => exact readValue_token (List.all_eq_true.mp rfl) delimited _
  | @number n literal =>
    intro fuel enough rest delimited
    obtain ⟨fuel, rfl⟩ := Nat.exists_eq_add_of_lt enough
    rw [write, traverse, Option.map_map]
    exact readValue_literal number literal _ delimited
  | string s =>
    intro fuel enough rest delimited
    obtain ⟨fuel, rfl⟩ := Nat.exists_eq_add_of_lt enough
    exact readValue_quote number s _ rest
  | @array items each ih =>
    intro fuel enough rest delimited
    obtain ⟨fuel, rfl⟩ := Nat.exists_eq_add_one_of_ne_zero (Nat.ne_zero_of_lt enough)
    -- the fuel is the length of the text, and the text of an item is shorter
    have count := length_le_write_array print items
    apply readValue_array number (fun v member => write_opening print (each v member)) _ (by omega)
    intro v member
    have bound := length_write_item print member
    exact ih v member fuel (by omega)
  | @object members distinct each ih =>
    intro fuel enough rest delimited
    obtain ⟨fuel, rfl⟩ := Nat.exists_eq_add_one_of_ne_zero (Nat.ne_zero_of_lt enough)
    have count := length_le_write_object print members
    apply readValue_object number distinct _ (by omega)
    intro member present
    have bound := length_write_member print present
    exact ih member present fuel (by omega)

theorem read_write {v : Json N} (wf : v.WellFormed fun n => IsLiteral (print n)) :
    read number (write print v) = v.traverse (number ∘ print) := by
  have whole := readValue_write number wf _ (Nat.lt_succ_self _) [] (by simp [Delimited])
  rw [List.append_nil] at whole
  rw [read, whole]
  cases v.traverse (number ∘ print) <;> rfl

theorem mapM_eq_self {A : Type} {g : A → Option A} {xs : List A}
    (fixed : ∀ x ∈ xs, g x = some x) : xs.mapM g = some xs := by
  induction xs with
  | nil => rfl
  | cons x xs ih =>
    have tail := ih fun y member => fixed y (List.mem_cons_of_mem _ member)
    rw [List.mapM_cons, fixed x List.mem_cons_self, tail]
    rfl

theorem traverse_eq_self {P : N → Prop} {g : N → Option N} {v : Json N} (wf : v.WellFormed P)
    (fixed : ∀ n, P n → g n = some n) : v.traverse g = some v := by
  induction wf with
  | null | bool b | string s => rfl
  | number meets => rw [traverse, fixed _ meets, Option.map_some]
  | array each ih => rw [traverse, traverseItems_eq, mapM_eq_self ih, Option.map_some]
  | @object members distinct each ih =>
    have same (member) (present : member ∈ members) : traverseMember g member = some member := by
      have value := ih member present
      obtain ⟨key, v⟩ := member
      rw [traverseMember, value, Option.map_some]
    rw [traverse, traverseMembers_eq, mapM_eq_self same, Option.map_some]

end Values

end Foundations.Json
