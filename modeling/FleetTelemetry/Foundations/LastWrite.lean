import Mathlib.Data.List.Basic

/-!
# Last write wins

The value of one cell under a log of entries that may write it, and the two ways a reader
can take the log up again: after a snapshot, and from an earlier position.
-/

namespace Foundations

variable {E V : Type} {g : E → Option V}

/-- The value the log last writes to the cell, where `g` is what an entry writes to it. -/
def lastWrite (g : E → Option V) : List E → Option V
  | [] => none
  | e :: es => (lastWrite g es).or (g e)

theorem lastWrite_append (xs ys : List E) :
    lastWrite g (xs ++ ys) = (lastWrite g ys).or (lastWrite g xs) := by
  induction xs with
  | nil => simp [lastWrite]
  | cons e xs ih => rw [List.cons_append, lastWrite, ih, Option.or_assoc, lastWrite]

theorem lastWrite_eq_none_iff (es : List E) :
    lastWrite g es = none ↔ ∀ e ∈ es, g e = none := by
  induction es with
  | nil => simp [lastWrite]
  | cons e es ih => rw [lastWrite, Option.or_eq_none_iff, ih, List.forall_mem_cons, and_comm]

theorem exists_of_lastWrite {es : List E} {v : V} (written : lastWrite g es = some v) :
    ∃ e ∈ es, g e = some v := by
  induction es with
  | nil => cases written
  | cons e es ih =>
    rw [lastWrite, Option.or_eq_some_iff] at written
    rcases written with later | ⟨_, here⟩
    · obtain ⟨e', member, wrote⟩ := ih later
      exact ⟨e', List.mem_cons_of_mem _ member, wrote⟩
    · exact ⟨e, List.mem_cons_self, here⟩

theorem lastWrite_map {W : Type} (f : V → W) (es : List E) :
    lastWrite (fun e => (g e).map f) es = (lastWrite g es).map f := by
  induction es with
  | nil => rfl
  | cons e es ih => rw [lastWrite, lastWrite, ih, Option.map_or]

/-- Entries that do not write the cell may be left out. -/
theorem lastWrite_filter (p : E → Bool) {es : List E} (others : ∀ e, p e = false → g e = none) :
    lastWrite g (es.filter p) = lastWrite g es := by
  induction es with
  | nil => rfl
  | cons e es ih =>
    cases kept : p e with
    | true => rw [List.filter_cons_of_pos kept, lastWrite, lastWrite, ih]
    | false =>
      rw [List.filter_cons_of_neg (by simp [kept]), ih, lastWrite, others e kept, Option.or_none]

/-- What the cell holds once the log is written on top of its value. -/
def settled (g : E → Option V) (es : List E) (v : Option V) : Option V := (lastWrite g es).or v

theorem settled_append (xs ys : List E) (v : Option V) :
    settled g (xs ++ ys) v = settled g ys (settled g xs v) := by
  rw [settled, lastWrite_append, Option.or_assoc]
  rfl

theorem settled_untouched {es : List E} (untouched : ∀ e ∈ es, g e = none) (v : Option V) :
    settled g es v = v := by
  rw [settled, (lastWrite_eq_none_iff es).mpr untouched, Option.none_or]

/-- A log either leaves the cell alone or settles it whatever it held. -/
theorem settled_cases (g : E → Option V) (es : List E) :
    (∀ e ∈ es, g e = none) ∨ ∀ v v', settled g es v = settled g es v' := by
  cases written : lastWrite g es with
  | none => exact .inl ((lastWrite_eq_none_iff es).mp written)
  | some x => exact .inr fun v v' => by simp [settled, written]

theorem settled_isSome (es : List E) {v : Option V} (present : v.isSome = true) :
    (settled g es v).isSome = true := by
  rw [settled, Option.isSome_or, present, Bool.or_true]

theorem settled_map {W : Type} (f : V → W) (es : List E) (v : Option V) :
    settled (fun e => (g e).map f) es (v.map f) = (settled g es v).map f := by
  rw [settled, settled, lastWrite_map, Option.map_or]

/-- A store that takes the entries one by one, seen through the cell. -/
theorem settled_foldl {M : Type} (step : M → E → M) (inv : M → Prop) (cell : M → Option V)
    (kept : ∀ m e, inv m → inv (step m e))
    (written : ∀ m e, inv m → cell (step m e) = (g e).or (cell m)) (es : List E) (m : M)
    (start : inv m) : cell (es.foldl step m) = settled g es (cell m) := by
  induction es generalizing m with
  | nil => rfl
  | cons e es ih =>
    rw [List.foldl_cons, ih (step m e) (kept m e start), written m e start, settled, settled,
      lastWrite, Option.or_assoc]

/-- A prefix of the log as a shorter one and what lies between them. -/
theorem take_split (es : List E) {m n : Nat} (shorter : m ≤ n) :
    es.take n = es.take m ++ (es.take n).drop m := by
  conv_lhs => rw [← List.take_append_drop m (es.take n)]
  rw [List.take_take, Nat.min_eq_left shorter]

/-- A snapshot taken after `r` entries, and the stream of the entries from the `d`th on:
nothing is missing if no entry in between writes the cell. -/
theorem settled_resume (es : List E) (v : Option V) (r d : Nat)
    (gap : ∀ e ∈ (es.take d).drop r, g e = none) :
    settled g (es.drop d) (settled g (es.take r) v) = settled g es v := by
  conv_rhs => rw [← List.take_append_drop d es, settled_append]
  -- if the stream writes the cell at all, what the snapshot held does not matter
  rcases settled_cases g (es.drop d) with untouched | settles
  · congr 1
    rcases Nat.le_total r d with earlier | later
    · rw [take_split es earlier, settled_append, settled_untouched gap]
    -- the snapshot is ahead of the stream, which re-delivers entries it has seen
    · have behind : ∀ e ∈ (es.take r).drop d, g e = none := by
        intro e member
        rw [List.drop_take] at member
        exact untouched e (List.mem_of_mem_take member)
      rw [take_split es later, settled_append, settled_untouched behind]
  · exact settles _ _

/-- A run of consecutive entries of a log, from `start` up to `stop`. -/
structure Segment where
  start : Nat
  stop : Nat

namespace Segment

def of (s : Segment) (es : List E) : List E := (es.drop s.start).take (s.stop - s.start)

/-- Where a reader at a position stands after the segments. -/
def finish : Nat → List Segment → Nat
  | position, [] => position
  | _, s :: rest => finish s.stop rest

/-- Each segment starts at or before the position the last one left. -/
def Rewinds : Nat → List Segment → Prop
  | _, [] => True
  | position, s :: rest => s.start ≤ position ∧ Rewinds s.stop rest

/-- Between a position inside a segment and its end nothing else is written. -/
theorem settled_of (es : List E) (v : Option V) (s : Segment) (m : Nat) (behind : s.start ≤ m)
    (untouched : ∀ e ∈ s.of es, g e = none) (short : m ≤ s.stop) :
    settled g (es.take s.stop) v = settled g (es.take m) v := by
  rw [take_split es short, settled_append]
  refine settled_untouched ?_ _
  intro e member
  apply untouched e
  have inside : (es.take s.stop).drop m = (s.of es).drop (m - s.start) := by
    rw [of, List.drop_take, List.drop_take, List.drop_drop]
    congr 1
    · omega
    · congr 1
      omega
  exact List.mem_of_mem_drop (inside ▸ member)

/-- The segment decides the cell, or the cell keeps the value of a later prefix. -/
theorem settled_segment (es : List E) (v : Option V) (s : Segment) (m n : Nat)
    (behind : s.start ≤ m) (known : m ≤ n) (ends : s.stop ≤ n) :
    ∃ m', s.stop ≤ m' ∧ m' ≤ n ∧
      settled g (s.of es) (settled g (es.take m) v) = settled g (es.take m') v := by
  rcases settled_cases g (s.of es) with untouched | settles
  · rw [settled_untouched untouched]
    rcases Nat.le_total s.stop m with past | short
    · exact ⟨m, past, known, rfl⟩
    · exact ⟨s.stop, Nat.le_refl _, ends, (settled_of es v s m behind untouched short).symm⟩
  · refine ⟨s.stop, Nat.le_refl _, ends, ?_⟩
    rcases Nat.le_total s.start s.stop with forward | backward
    -- the segment ends the prefix up to `stop` and settles the cell like the prefix does
    · have last : (es.take s.stop).drop s.start = s.of es := List.drop_take ..
      rw [take_split es forward, last, settled_append]
      exact settles _ _
    · have empty : s.of es = [] := by
        rw [of, Nat.sub_eq_zero_of_le backward, List.take_zero]
      rw [empty] at settles ⊢
      exact settles _ _

/-- A reader that never goes past the end, and stops there, has the value of the end, even
though it passed through older ones. -/
theorem settled_replay (es : List E) (v : Option V) (position n : Nat)
    (segments : List Segment) (rewinds : Rewinds position segments) (known : position ≤ n)
    (ends : ∀ s ∈ segments, s.stop ≤ n) (finished : finish position segments = n) :
    settled g (segments.flatMap fun s => s.of es) (settled g (es.take position) v) =
      settled g (es.take n) v := by
  -- a rewind may bring back an older value, but only of a prefix past the position
  have ahead : ∀ m, position ≤ m → m ≤ n →
      settled g (segments.flatMap fun s => s.of es) (settled g (es.take m) v) =
        settled g (es.take n) v := by
    clear known
    induction segments generalizing position with
    | nil =>
      intro m reached bounded
      have same : m = n := Nat.le_antisymm bounded (finished ▸ reached)
      rw [List.flatMap_nil, settled_untouched (by simp), same]
    | cons s rest ih =>
      intro m reached bounded
      obtain ⟨m', reached', bounded', value⟩ := settled_segment (g := g) es v s m n
        (Nat.le_trans rewinds.1 reached) bounded (ends s List.mem_cons_self)
      rw [List.flatMap_cons, settled_append, value]
      exact ih s.stop rewinds.2 (fun t member => ends t (List.mem_cons_of_mem _ member))
        finished m' reached' bounded'
  exact ahead position (Nat.le_refl _) known

/-- A cell with a value at the start of a replay has one at its end. -/
theorem settled_replay_some (es : List E) (v : Option V) (position n : Nat)
    (segments : List Segment) (rewinds : Rewinds position segments) (known : position ≤ n)
    (ends : ∀ s ∈ segments, s.stop ≤ n) (finished : finish position segments = n)
    (present : (settled g (es.take position) v).isSome = true) :
    ∃ x, settled g (es.take n) v = some x ∧
      settled g (segments.flatMap fun s => s.of es) (settled g (es.take position) v) = some x := by
  have replayed := settled_replay (g := g) es v position n segments rewinds known ends finished
  have shown := settled_isSome (g := g) (segments.flatMap fun s => s.of es) present
  rw [replayed] at shown
  obtain ⟨x, final⟩ := Option.isSome_iff_exists.mp shown
  exact ⟨x, final, replayed.trans final⟩

end Segment

end Foundations
