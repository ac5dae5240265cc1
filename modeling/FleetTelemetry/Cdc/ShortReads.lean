import FleetTelemetry.Cdc.RowChanges

/-!
# Reading a row change that breaks off

Fixed-width fields are checked against the buffer, but `take` returns what is left of it, so
a message that breaks off in the text of its last column is read as if that text were
shorter. Any other break raises.
-/

namespace FleetTelemetry.Cdc

open Foundations Foundations.Wire

namespace Reader

/-- Nothing is left of the buffer. -/
def Spent (r : Reader) : Prop := (r.buf.length : Int) ≤ r.pos

theorem Unread.spent {r : Reader} (unread : r.Unread []) : r.Spent := by
  obtain ⟨read, buf, pos⟩ := unread
  simp [Spent, buf, pos]

theorem unpack_past {k : Nat} {r : Reader} (forward : 0 ≤ r.pos)
    (past : (r.buf.length : Int) < r.pos + k) : r.unpack k = .error .structError := by
  have outside : ¬(0 ≤ r.pos ∧ r.pos + (k : Int) ≤ r.buf.length) := by omega
  have field : Bytes.unpackFrom k r.buf r.pos = .error .structError := by
    rw [Bytes.unpackFrom, if_neg (by omega : ¬r.pos < 0)]
    exact if_neg outside
  simp only [unpack, field]
  rfl

theorem unpack_short {k : Nat} {r : Reader} {rest : List UInt8} (unread : r.Unread rest)
    (short : rest.length < k) : r.unpack k = .error .structError := by
  obtain ⟨read, buf, pos⟩ := unread
  have length : r.buf.length = read.length + rest.length := by rw [buf, List.length_append]
  exact unpack_past (by omega) (by omega)

theorem unpack_spent {k : Nat} {r : Reader} (spent : r.Spent) (positive : 0 < k) :
    r.unpack k = .error .structError := by
  unfold Spent at spent
  exact unpack_past (by omega) (by omega)

theorem slice_past {buf : List UInt8} {a b : Int} (past : (buf.length : Int) ≤ a) :
    Bytes.slice buf a b = [] := by
  have start : Bytes.clip buf.length a = buf.length := by
    rw [Bytes.clip, if_neg (by omega)]
    omega
  rw [Bytes.slice, start]
  exact List.drop_eq_nil_of_le (List.length_take_le' _ _)

theorem char_spent {r : Reader} (spent : r.Spent) : ∃ r', r.char = ([], r') ∧ r'.Spent := by
  have past : (r.buf.length : Int) ≤ r.pos + 1 := by
    unfold Spent at spent
    omega
  exact ⟨_, Prod.ext (slice_past spent) rfl, past⟩

/-- A slice that would go past the end stops there. -/
theorem take_short {r : Reader} {rest : List UInt8} (unread : r.Unread rest) {n : Nat}
    (short : rest.length ≤ n) : ∃ r', r.take n = (rest, r') ∧ r'.Spent := by
  obtain ⟨read, buf, pos⟩ := unread
  have length : r.buf.length = read.length + rest.length := by rw [buf, List.length_append]
  have start : Bytes.clip r.buf.length r.pos = read.length := by
    rw [Bytes.clip, if_neg (by omega)]
    omega
  have stop : Bytes.clip r.buf.length (r.pos + n) = r.buf.length := by
    rw [Bytes.clip, if_neg (by omega)]
    omega
  have slice : Bytes.slice r.buf r.pos (r.pos + n) = rest := by
    rw [Bytes.slice, start, stop, List.take_length, buf, List.drop_left' rfl]
  have past : (r.buf.length : Int) ≤ r.pos + n := by omega
  exact ⟨_, Prod.ext slice rfl, past⟩

end Reader

section Break

variable {front tail rest lost : List UInt8}

/-- A message that breaks off behind its first part. -/
theorem break_behind (whole : rest ++ lost = front ++ tail) (large : front.length ≤ rest.length) :
    ∃ rest', rest = front ++ rest' ∧ rest' ++ lost = tail := by
  obtain ⟨rest', rfl⟩ : front <+: rest :=
    List.prefix_of_prefix_length_le ⟨tail, whole.symm⟩ ⟨lost, rfl⟩ large
  rw [List.append_assoc] at whole
  exact ⟨rest', rfl, List.append_cancel_left whole⟩

/-- A message that breaks off in its first part. -/
theorem break_inside (whole : rest ++ lost = front ++ tail) (small : rest.length < front.length) :
    ∃ missing, missing ≠ [] ∧ rest ++ missing = front ∧ lost = missing ++ tail := by
  obtain ⟨missing, rfl⟩ : rest <+: front :=
    List.prefix_of_prefix_length_le ⟨lost, whole⟩ ⟨tail, rfl⟩ (Nat.le_of_lt small)
  rw [List.append_assoc] at whole
  refine ⟨missing, ?_, rfl, List.append_cancel_left whole⟩
  rintro rfl
  rw [List.append_nil] at small
  exact Nat.lt_irrefl _ small

end Break

/-- The text of the last column. -/
def lastText (data : List Datum) : Option String :=
  match data.getLast? with
  | some (.text s) => some s
  | _ => none

/-- The columns with another text in the last one. -/
def withLast (data : List Datum) (text : String) : List Datum := data.dropLast ++ [.text text]

theorem lastText_cons {data : List Datum} (d : Datum) (more : data ≠ []) :
    lastText (d :: data) = lastText data := by
  rw [lastText, List.getLast?_cons_of_ne_nil more, lastText]

theorem withLast_cons {data : List Datum} (d : Datum) (more : data ≠ []) (text : String) :
    withLast (d :: data) text = d :: withLast data text := by
  rw [withLast, List.dropLast_cons_of_ne_nil more, withLast, List.cons_append]

theorem length_encodeDatum_text (s : String) :
    (encodeDatum (.text s)).length = (utf8 s).length + 5 := by
  rw [encodeDatum, List.length_cons, List.length_append, length_encodeInt]
  omega

theorem length_lastText {data : List Datum} {s : String} (last : lastText data = some s) :
    (utf8 s).length + 5 ≤ (data.flatMap encodeDatum).length := by
  induction data with
  | nil => cases last
  | cons d data ih =>
    rw [List.flatMap_cons, List.length_append]
    -- a last text is the text of the last datum, with its kind and length in front
    by_cases more : data = []
    · subst more
      cases d with
      | null | unchanged => cases last
      | text t =>
        cases last
        rw [length_encodeDatum_text]
        exact Nat.le_add_right _ _
    · rw [lastText_cons d more] at last
      exact Nat.le_trans (ih last) (Nat.le_add_left _ _)

/-- A read of a tuple whose last bytes are lost: it raises, and more than the text of the
last column is missing, or it returns a row with what is left of that text. -/
def Broken {A : Type} (data : List Datum) (lost : List UInt8) (value : String → Reader → A)
    (outcome : Except PyError A) : Prop :=
  (∃ e, outcome = .error e) ∧ (∀ s, lastText data = some s → (utf8 s).length < lost.length) ∨
    ∃ s kept r, lastText data = some s ∧ kept ++ lost = utf8 s ∧ r.Spent ∧
      outcome = (Bytes.decode kept).map fun text => value text r

section Columns

variable {r : Reader}

/-- A column whose kind is missing lacks its length as well. -/
theorem readDatum_spent (spent : r.Spent) : readDatum [] r = .error .structError := by
  have noKind : ¬([] : List UInt8) = [110] ∧ ¬([] : List UInt8) = [117] := by simp
  rw [readDatum, if_neg noKind.1, if_neg noKind.2, Reader.int32,
    Reader.unpack_spent spent (by omega)]
  rfl

/-- A column that breaks off: its kind or its length is missing, or the end of its text. -/
theorem readDatum_short (d : Datum) (fits : 2 * d.size < 256 ^ 4) {rest lost : List UInt8}
    (broken : rest ++ lost = encodeDatum d) (short : lost ≠ []) (unread : r.Unread rest) :
    ∃ kind r₁, r.char = (kind, r₁) ∧
      (readDatum kind r₁ = .error .structError ∧
          (∀ s, d = .text s → (utf8 s).length < lost.length) ∨
        ∃ s kept r₂, d = .text s ∧ kept ++ lost = utf8 s ∧ r₂.Spent ∧
          readDatum kind r₁ = (Bytes.decode kept).map fun t => (.text t, r₂)) := by
  cases rest with
  | nil =>
    obtain ⟨r₁, kind, spent⟩ := Reader.char_spent unread.spent
    refine ⟨[], r₁, kind, .inl ⟨readDatum_spent spent, ?_⟩⟩
    rintro s rfl
    rw [List.nil_append] at broken
    rw [broken, length_encodeDatum_text]
    omega
  | cons b rest =>
    obtain ⟨r₁, kind, unread₁⟩ := Reader.char_unread unread
    refine ⟨[b], r₁, kind, ?_⟩
    cases d with
    -- the kind is all there is to these two
    | null | unchanged =>
      obtain ⟨_, none⟩ := List.cons.inj broken
      exact absurd (List.append_eq_nil_iff.mp none).2 short
    | text s =>
      simp only [encodeDatum, List.cons_append, List.cons.injEq] at broken
      obtain ⟨rfl, broken⟩ := broken
      have isText : ¬([116] : List UInt8) = [110] ∧ ¬([116] : List UInt8) = [117] := by decide
      rw [readDatum, if_neg isText.1, if_neg isText.2]
      have header := length_encodeInt 4 (utf8 s).length
      rcases Nat.lt_or_ge rest.length 4 with small | large
      · refine .inl ⟨by rw [Reader.int32, Reader.unpack_short unread₁ small]; rfl, ?_⟩
        rintro s' ⟨rfl⟩
        have total := congrArg List.length broken
        simp only [List.length_append, header] at total
        omega
      · obtain ⟨kept, rfl, tail⟩ := break_behind broken (by rwa [header])
        obtain ⟨r₂, length, unread₂⟩ :=
          Reader.unpack_unread (count 4 (utf8 s).length fits) unread₁
        have fewer : kept.length ≤ (utf8 s).length := by
          rw [← tail, List.length_append]
          exact Nat.le_add_right _ _
        obtain ⟨r₃, taken, spent⟩ := Reader.take_short unread₂ fewer
        refine .inr ⟨s, kept, r₃, rfl, tail, spent, ?_⟩
        have taken' : r₂.take (count 4 (utf8 s).length fits).val = (kept, r₃) := taken
        simp only [Reader.int32, length, ok_bind, taken']
        cases Bytes.decode kept <;> rfl

/-- No column can be read from a buffer that is used up. -/
theorem readColumnsOf_spent (columns : List String) (n i : Nat) (inside : i < columns.length)
    (values : OrdMap String Datum) (spent : r.Spent) :
    readColumnsOf columns (n + 1) i values r = .error .structError := by
  obtain ⟨r₁, kind, spent₁⟩ := Reader.char_spent spent
  simp only [readColumnsOf, kind, List.getElem?_eq_getElem inside, readDatum_spent spent₁]
  rfl

section Parts

variable {columns : List String} {i : Nat} {values : OrdMap String Datum} {d : Datum}
  {data : List Datum} {rest lost : List UInt8}

/-- A column that is all there is read before the break is met. -/
theorem readColumnsOf_cons (values : OrdMap String Datum) (inside : i < columns.length)
    (fits : 2 * d.size < 256 ^ 4) (n : Nat) (unread : r.Unread (encodeDatum d ++ rest)) :
    ∃ r', r'.Unread rest ∧ readColumnsOf columns (n + 1) i values r =
      readColumnsOf columns n (i + 1) (values.set columns[i] d) r' := by
  obtain ⟨kind, r₁, r₂, char, datum, unread₂⟩ := readDatum_unread d fits unread
  refine ⟨r₂, unread₂, ?_⟩
  simp only [readColumnsOf, char, List.getElem?_eq_getElem inside, datum, ok_bind]

theorem Broken.cons (inside : i < columns.length) (more : data ≠ [])
    {outcome : Except PyError (OrdMap String Datum × Reader)}
    (broken : Broken data lost (fun text r' => (((columns.drop (i + 1)).zip (withLast data
      text)).foldl (fun values e => values.set e.1 e.2) (values.set columns[i] d), r')) outcome) :
    Broken (d :: data) lost (fun text r' => (((columns.drop i).zip (withLast (d :: data)
      text)).foldl (fun values e => values.set e.1 e.2) values, r')) outcome := by
  unfold Broken at broken ⊢
  simp only [lastText_cons d more, withLast_cons d more, List.drop_eq_getElem_cons inside,
    List.zip_cons_cons, List.foldl_cons]
  exact broken

/-- The break is in the first column that is still to be read. -/
theorem readColumnsOf_head (bounded : i + (d :: data).length ≤ columns.length)
    (fits : 2 * d.size < 256 ^ 4) (broken : rest ++ lost = encodeDatum d) (short : lost ≠ [])
    (unread : r.Unread rest) :
    Broken (d :: data) (lost ++ data.flatMap encodeDatum)
      (fun text r' => (((columns.drop i).zip (withLast (d :: data) text)).foldl
        (fun values e => values.set e.1 e.2) values, r'))
      (readColumnsOf columns (d :: data).length i values r) := by
  rw [List.length_cons] at bounded ⊢
  have inside : i < columns.length := by omega
  -- with another column behind it, its end is missing as well
  have behind : data ≠ [] → ∀ s, lastText (d :: data) = some s →
      (utf8 s).length < (lost ++ data.flatMap encodeDatum).length := by
    intro more s last
    rw [lastText_cons d more] at last
    have length := length_lastText last
    rw [List.length_append]
    omega
  obtain ⟨kind, r₁, char, failed | ⟨s, kept, r₂, rfl, tail, spent, datum⟩⟩ :=
    readDatum_short d fits broken short unread
  · refine .inl ⟨⟨.structError, ?_⟩, ?_⟩
    · simp only [readColumnsOf, char, List.getElem?_eq_getElem inside, failed.1]
      rfl
    · intro s last
      by_cases more : data = []
      · subst more
        cases d with
        | null | unchanged => cases last
        | text t =>
          cases last
          simpa using failed.2 s rfl
      · exact behind more s last
  -- the end of a text is missing: the row ends here, or cannot go on
  · cases data with
    | nil =>
      have row : ∀ text, ((columns.drop i).zip (withLast [.text s] text)).foldl
          (fun values e => values.set e.1 e.2) values = values.set columns[i] (.text text) := by
        intro text
        rw [List.drop_eq_getElem_cons inside, withLast, List.dropLast_singleton, List.nil_append,
          List.zip_cons_cons, List.zip_nil_right, List.foldl_cons, List.foldl_nil]
      refine .inr ⟨s, kept, r₂, rfl, by simpa using tail, spent, ?_⟩
      simp only [List.length_nil, readColumnsOf, char, List.getElem?_eq_getElem inside, datum, row]
      cases Bytes.decode kept <;> rfl
    | cons d' data =>
      refine .inl ⟨?_, behind (List.cons_ne_nil _ _)⟩
      simp only [List.length_cons, readColumnsOf, char, List.getElem?_eq_getElem inside, datum]
      cases decoded : Bytes.decode kept with
      | error e => exact ⟨e, rfl⟩
      | ok text =>
        rw [List.length_cons] at bounded
        exact ⟨_, readColumnsOf_spent columns data.length (i + 1) (by omega) _ spent⟩

end Parts

/-- The columns `_read_tuple` reads are those before the break. -/
theorem readColumnsOf_short (columns : List String) (data : List Datum) (i : Nat)
    (values : OrdMap String Datum) (bounded : i + data.length ≤ columns.length)
    (fits : ∀ d ∈ data, 2 * d.size < 256 ^ 4) {rest lost : List UInt8}
    (broken : rest ++ lost = data.flatMap encodeDatum) (short : lost ≠ [])
    (unread : r.Unread rest) :
    Broken data lost
      (fun text r' => (((columns.drop i).zip (withLast data text)).foldl
        (fun values e => values.set e.1 e.2) values, r'))
      (readColumnsOf columns data.length i values r) := by
  induction data generalizing i values r rest with
  | nil => exact absurd (List.append_eq_nil_iff.mp broken).2 short
  | cons d data ih =>
    have inside : i < columns.length := by
      rw [List.length_cons] at bounded
      omega
    have fits₁ := fits d List.mem_cons_self
    rw [List.flatMap_cons] at broken
    -- the break is in this column or behind it
    by_cases here : rest.length < (encodeDatum d).length
    · obtain ⟨missing, short', whole, rfl⟩ := break_inside broken here
      exact readColumnsOf_head bounded fits₁ whole short' unread
    · obtain ⟨rest', rfl, broken'⟩ := break_behind broken (Nat.le_of_not_lt here)
      have more : data ≠ [] := by
        rintro rfl
        exact short (List.append_eq_nil_iff.mp broken').2
      obtain ⟨r', unread', step⟩ := readColumnsOf_cons values inside fits₁ data.length unread
      rw [List.length_cons, step]
      rw [List.length_cons] at bounded
      exact (ih (i + 1) _ (by omega) (fun d member => fits d (List.mem_cons_of_mem _ member))
        broken' unread').cons inside more

end Columns

section Messages

variable {c : Consumer} {oid : WireInt 4} {relation : Relation} {r : Reader}
  {rest lost : List UInt8}

theorem length_lastText_encode {t : Tuple} {s : String} (last : lastText t.data = some s) :
    (utf8 s).length < t.encode.length := by
  have length := length_lastText last
  rw [Tuple.encode, List.length_append]
  omega

/-- A read that raises with the whole tuple still to come. -/
theorem Broken.raised {A : Type} {t : Tuple} {value : String → Reader → A}
    {outcome : Except PyError A} {e : PyError} (raised : outcome = .error e)
    (missing : t.encode.length ≤ lost.length) : Broken t.data lost value outcome :=
  .inl ⟨⟨e, raised⟩, fun _ last => Nat.lt_of_lt_of_le (length_lastText_encode last) missing⟩

theorem Broken.bind {A B : Type} {data : List Datum} {value : String → Reader → A}
    {outcome : Except PyError A} (f : A → B) (broken : Broken data lost value outcome) :
    Broken data lost (fun text r => f (value text r)) (outcome >>= fun a => .ok (f a)) := by
  rcases broken with ⟨⟨e, rfl⟩, beyond⟩ | ⟨s, kept, r, last, tail, spent, rfl⟩
  · exact .inl ⟨⟨e, rfl⟩, beyond⟩
  · refine .inr ⟨s, kept, r, last, tail, spent, ?_⟩
    cases Bytes.decode kept <;> rfl

/-- After a tuple that breaks off, nothing more can be read. -/
theorem Broken.spent {A : Type} {data : List Datum} {value : String → Reader → A × Reader}
    {outcome : Except PyError (A × Reader)} (broken : Broken data lost value outcome)
    (reader : ∀ text r, (value text r).2 = r) :
    (∃ e, outcome = .error e) ∨ ∃ a r, outcome = .ok (a, r) ∧ r.Spent := by
  rcases broken with ⟨raised, _⟩ | ⟨s, kept, r, last, tail, spent, rfl⟩
  · exact .inl raised
  · cases Bytes.decode kept with
    | error e => exact .inl ⟨e, rfl⟩
    | ok text =>
      refine .inr ⟨(value text r).1, r, ?_, spent⟩
      exact congrArg Except.ok (Prod.ext rfl (reader text r))

theorem readTuple_spent (cached : c.relations.get? oid.val = some relation.cached)
    (spent : r.Spent) : readTuple c oid.val r = .error .structError := by
  simp only [readTuple, Consumer.relation, cached, ok_bind, Reader.int16,
    Reader.unpack_spent spent (by decide : 0 < 2)]
  rfl

theorem readTuple_short (cached : c.relations.get? oid.val = some relation.cached) (t : Tuple)
    (bounded : t.data.length ≤ relation.columns.length) (broken : rest ++ lost = t.encode)
    (short : lost ≠ []) (unread : r.Unread rest) :
    Broken t.data lost (fun text r' => (rowOf relation.cached.2 (withLast t.data text), r'))
      (readTuple c oid.val r) := by
  have width : (count 2 t.data.length t.data_fit).encode.length = 2 := length_encodeInt 2 _
  have counted : (count 2 t.data.length t.data_fit).val.toNat = t.data.length :=
    Int.toNat_natCast _
  rw [Tuple.encode] at broken
  -- the break is in the column count, or behind it in the columns
  by_cases here : rest.length < 2
  · obtain ⟨missing, short', _, rfl⟩ := break_inside broken (by rwa [width])
    refine .inl ⟨⟨.structError, ?_⟩, ?_⟩
    · simp only [readTuple, Consumer.relation, cached, ok_bind, Reader.int16,
        Reader.unpack_short unread here]
      rfl
    -- a last text would be longer than the two bytes that are left
    · intro s last
      have length := length_lastText last
      rw [List.length_append]
      omega
  · obtain ⟨rest', rfl, broken'⟩ := break_behind broken (by rw [width]; omega)
    obtain ⟨r₁, size, unread₁⟩ := Reader.unpack_unread _ unread
    have columns := readColumnsOf_short relation.cached.2 t.data 0 .empty
      (by simpa [Relation.cached] using bounded) t.texts_fit broken' short unread₁
    simp only [readTuple, Consumer.relation, cached, Reader.int16, size, ok_bind, counted]
    exact columns

/-- A message that breaks off in its tag, the relation's OID or the kind of the first tuple. -/
theorem opening_short {tag kind : UInt8} {tail p : List UInt8}
    (broken : p ++ lost = tag :: (oid.encode ++ (kind :: tail))) (begun : p ≠ []) :
    ∃ r₁, (Reader.new p).char = ([tag], r₁) ∧
      ((r₁.unpack 4 = .error .structError ∨
          ∃ r₂ r₃, r₁.unpack 4 = .ok (oid.val, r₂) ∧ r₂.char = ([], r₃) ∧ r₃.Spent) ∧
          tail.length ≤ lost.length ∨
        ∃ r₂ r₃ rest, r₁.unpack 4 = .ok (oid.val, r₂) ∧ r₂.char = ([kind], r₃) ∧
          r₃.Unread rest ∧ rest ++ lost = tail) := by
  cases p with
  | nil => exact absurd rfl begun
  | cons b p =>
    rw [List.cons_append, List.cons.injEq] at broken
    obtain ⟨rfl, broken⟩ := broken
    obtain ⟨r₁, char, unread₁⟩ := Reader.char_unread (Reader.unread_new (b :: p))
    refine ⟨r₁, char, ?_⟩
    have width : oid.encode.length = 4 := length_encodeInt 4 _
    -- the break is in the OID, right behind it, or past the kind of the first tuple
    by_cases here : p.length < 4
    · obtain ⟨missing, _, _, rfl⟩ := break_inside broken (by rwa [width])
      refine .inl ⟨.inl (Reader.unpack_short unread₁ here), ?_⟩
      simp only [List.length_append, List.length_cons]
      omega
    · obtain ⟨rest, rfl, broken'⟩ := break_behind broken (by rw [width]; omega)
      obtain ⟨r₂, read, unread₂⟩ := Reader.unpack_unread oid unread₁
      cases rest with
      | nil =>
        obtain ⟨r₃, marker, spent⟩ := Reader.char_spent unread₂.spent
        refine .inl ⟨.inr ⟨r₂, r₃, read, marker, spent⟩, ?_⟩
        rw [List.nil_append] at broken'
        rw [broken', List.length_cons]
        omega
      | cons b' rest =>
        rw [List.cons_append, List.cons.injEq] at broken'
        obtain ⟨rfl, broken'⟩ := broken'
        obtain ⟨r₃, marker, unread₃⟩ := Reader.char_unread unread₂
        exact .inr ⟨r₂, r₃, rest, read, marker, unread₃, broken'⟩

/-- Without its opening a row change raises, whichever it is. -/
theorem readChange_stops (cached : c.relations.get? oid.val = some relation.cached) {tag : UInt8}
    (change : tag = 73 ∨ tag = 85) {p : List UInt8} {r₁ : Reader}
    (char : (Reader.new p).char = ([tag], r₁))
    (stops : r₁.unpack 4 = .error .structError ∨
      ∃ r₂ r₃, r₁.unpack 4 = .ok (oid.val, r₂) ∧ r₂.char = ([], r₃) ∧ r₃.Spent) :
    readChange c p = .error .structError := by
  have notInsert : ¬([85] : List UInt8) = [73] := by decide
  -- the break is in the OID, or right behind the marker of the tuple
  rcases stops with raised | ⟨r₂, r₃, read, marker, spent⟩
  · rcases change with rfl | rfl
    · simp only [readChange, char, if_true, Reader.int32, raised]
      rfl
    · simp only [readChange, char, if_neg notInsert, if_true, Reader.int32, raised]
      rfl
  · have missing := readTuple_spent cached spent
    rcases change with rfl | rfl
    · rw [readChange_insert char read marker, missing]
      rfl
    · rw [readChange_update char read marker (by simp), missing]
      rfl

/-- The last tuple of a message that breaks off. -/
theorem newTuple_short (cached : c.relations.get? oid.val = some relation.cached) (new : Tuple)
    (bounded : new.data.length ≤ relation.columns.length) (broken : rest ++ lost = new.encode)
    (short : lost ≠ []) (unread : r.Unread rest) :
    Broken new.data lost
      (fun text reader => some (oid.val, rowOf relation.cached.2 (withLast new.data text), reader))
      (readTuple c oid.val r >>= fun read => .ok (some (oid.val, read.1, read.2))) :=
  (readTuple_short cached new bounded broken short unread).bind
    fun read => some (oid.val, read.1, read.2)

/-- The two tuples of an update that breaks off. -/
theorem tuples_short (cached : c.relations.get? oid.val = some relation.cached) (old new : Tuple)
    (oldFits : old.data.length ≤ relation.columns.length)
    (newFits : new.data.length ≤ relation.columns.length)
    (broken : rest ++ lost = old.encode ++ (78 :: new.encode)) (short : lost ≠ [])
    (unread : r.Unread rest) :
    Broken new.data lost
      (fun text reader => some (oid.val, rowOf relation.cached.2 (withLast new.data text), reader))
      (readTuple c oid.val r >>= fun skipped => readTuple c oid.val skipped.2.char.2 >>=
        fun read => .ok (some (oid.val, read.1, read.2))) := by
  by_cases here : rest.length < old.encode.length
  -- what is left of the old tuple is no row change, even where it can be read
  · obtain ⟨missing, short', whole, rfl⟩ := break_inside broken here
    have fewer : new.encode.length ≤ (missing ++ 78 :: new.encode).length := by
      rw [List.length_append, List.length_cons]
      omega
    have first := readTuple_short cached old oldFits whole short' unread
    obtain ⟨e, raised⟩ | ⟨values, r', read, spent⟩ := first.spent fun _ _ => rfl
    · exact .raised (e := e) (by rw [raised]; rfl) fewer
    · obtain ⟨r'', marker, spent'⟩ := Reader.char_spent spent
      have second := readTuple_spent cached spent'
      exact .raised (e := .structError) (by rw [read, ok_bind, marker, second]; rfl) fewer
  -- the old tuple is whole, so the break is in the marker or in the new tuple
  · obtain ⟨rest', rfl, broken'⟩ := break_behind broken (Nat.le_of_not_lt here)
    obtain ⟨r', first, unread'⟩ := readTuple_unread c oid.val relation old cached oldFits unread
    rw [first, ok_bind]
    cases rest' with
    | nil =>
      obtain ⟨r'', marker, spent⟩ := Reader.char_spent unread'.spent
      refine .raised (e := .structError) (by rw [marker, readTuple_spent cached spent]; rfl) ?_
      rw [List.nil_append] at broken'
      rw [broken', List.length_cons]
      omega
    | cons b rest' =>
      rw [List.cons_append, List.cons.injEq] at broken'
      obtain ⟨r'', marker, unread''⟩ := Reader.char_unread unread'
      rw [marker]
      exact newTuple_short cached new newFits broken'.2 short unread''

/-- What is read of a row change that breaks off behind its first byte. -/
theorem readChange_short (m : PgMessage) {old : Option Tuple} {new : Tuple}
    (row : m.row? = some (oid, old, new))
    (cached : c.relations.get? oid.val = some relation.cached)
    (newFits : new.data.length ≤ relation.columns.length)
    (oldFits : ∀ t, old = some t → t.data.length ≤ relation.columns.length) {p : List UInt8}
    (broken : p ++ lost = m.encode) (short : lost ≠ []) (begun : p ≠ []) :
    Broken new.data lost
      (fun text reader => some (oid.val, rowOf relation.cached.2 (withLast new.data text), reader))
      (readChange c p) := by
  cases m with
  | relation | silent => cases row
  -- broken in front of the tuple it raises; behind it the tuple decides
  | insert oid new =>
    cases row
    obtain ⟨r₁, tag, ⟨stops, fewer⟩ | ⟨r₂, r₃, rest, read, marker, unread, broken⟩⟩ :=
      opening_short broken begun
    · exact .raised (readChange_stops cached (.inl rfl) tag stops) fewer
    · rw [readChange_insert tag read marker]
      exact newTuple_short cached new newFits broken short unread
  | update oid old' new =>
    cases old' with
    | none =>
      cases row
      obtain ⟨r₁, tag, ⟨stops, fewer⟩ | ⟨r₂, r₃, rest, read, marker, unread, broken⟩⟩ :=
        opening_short broken begun
      · exact .raised (readChange_stops cached (.inr rfl) tag stops) fewer
      · rw [readChange_update tag read marker notOld_new]
        exact newTuple_short cached new newFits broken short unread
    -- the old tuple is skipped whole, or the break is inside it and it raises
    | some before =>
      obtain ⟨kind, before⟩ := before
      cases row
      obtain ⟨r₁, tag, ⟨stops, fewer⟩ | ⟨r₂, r₃, rest, read, marker, unread, broken⟩⟩ :=
        opening_short broken begun
      · refine .raised (readChange_stops cached (.inr rfl) tag stops) ?_
        rw [List.length_append, List.length_cons] at fewer
        omega
      · rw [readChange_updateOld tag read marker (isOld_tag kind)]
        exact tuples_short cached before new (oldFits before rfl) newFits broken short unread

end Messages

end FleetTelemetry.Cdc
