import FleetTelemetry.Foundations.LastWrite

/-!
# A stream that is set back

A reader takes the entries of a growing log one by one, and may be set back to an earlier
position, from where it takes them again. In between it holds values that are older than
its position; at the end of the log it holds what one pass from its lowest position gives.
-/

namespace Foundations

variable {E V : Type} {g : E → Option V} {base shown : Option V} {log : List E}
  {low position : Nat}

/-- What a reader holds that began with `base`, is at `position`, and has been no lower than
`low`: the value of one pass from `start` to `stop`, where nothing that it has taken again
below `start` writes the cell. -/
structure Restreamed (g : E → Option V) (base : Option V) (log : List E) (low position : Nat)
    (shown : Option V) : Prop where
  order : low ≤ position ∧ position ≤ log.length
  pass : ∃ start stop, low ≤ start ∧ start ≤ stop ∧ position ≤ stop ∧ stop ≤ log.length ∧
    shown = settled g ((log.take stop).drop start) base ∧
    ∀ e ∈ (log.take (min position start)).drop low, g e = none

namespace Restreamed

theorem begin (inside : position ≤ log.length) : Restreamed g base log position position base := by
  refine ⟨⟨Nat.le_refl _, inside⟩, position, position, Nat.le_refl _, Nat.le_refl _,
    Nat.le_refl _, inside, ?_, ?_⟩
  · rw [List.drop_eq_nil_of_le (List.length_take_le ..)]
    rfl
  · rw [Nat.min_self, List.drop_eq_nil_of_le (List.length_take_le ..)]
    exact fun _ member => absurd member List.not_mem_nil

theorem append (r : Restreamed g base log low position shown) (more : List E) :
    Restreamed g base (log ++ more) low position shown := by
  obtain ⟨⟨above, inside⟩, start, stop, lowest, forward, ahead, within, value, quiet⟩ := r
  refine ⟨⟨above, ?_⟩, start, stop, lowest, forward, ahead, ?_, ?_, ?_⟩
  · simp; omega
  · simp; omega
  · rw [List.take_append_of_le_length within]
    exact value
  · rw [List.take_append_of_le_length (by omega)]
    exact quiet

theorem rewind (r : Restreamed g base log low position shown) {earlier : Nat}
    (back : earlier ≤ position) : Restreamed g base log (min low earlier) earlier shown := by
  obtain ⟨⟨above, inside⟩, start, stop, lowest, forward, ahead, within, value, quiet⟩ := r
  refine ⟨⟨Nat.min_le_right .., by omega⟩, start, stop, by omega, forward, by omega, within,
    value, ?_⟩
  intro e member
  rcases Nat.le_total earlier low with below | between
  -- nothing has been taken again yet
  · rw [Nat.min_eq_right below, Nat.min_eq_left (by omega),
      List.drop_eq_nil_of_le (List.length_take_le ..)] at member
    exact absurd member List.not_mem_nil
  · rw [Nat.min_eq_left between] at member
    apply quiet e
    have shorter : min earlier start ≤ min position start := by omega
    have split := take_split log shorter
    rw [split, List.drop_append]
    exact List.mem_append_left _ member

/-- The prefix up to a position, longer by the entry there. -/
theorem drop_take_succ {e : E} (next : log[position]? = some e) {start : Nat}
    (before : start ≤ position) :
    (log.take (position + 1)).drop start = (log.take position).drop start ++ [e] := by
  have inside : position < log.length := (List.getElem?_eq_some_iff.mp next).1
  rw [List.take_add_one, next, Option.toList_some, List.drop_append_of_le_length]
  rw [List.length_take]
  omega

theorem deliver (r : Restreamed g base log low position shown) {e : E}
    (next : log[position]? = some e) :
    Restreamed g base log low (position + 1) ((g e).or shown) := by
  obtain ⟨⟨above, inside⟩, start, stop, lowest, forward, ahead, within, value, quiet⟩ := r
  have room : position < log.length := (List.getElem?_eq_some_iff.mp next).1
  refine ⟨⟨by omega, by omega⟩, ?_⟩
  cases wrote : g e with
  | some x =>
    -- the entry decides, whatever has been taken again before it
    refine ⟨low, position + 1, Nat.le_refl _, by omega, Nat.le_refl _, by omega, ?_, ?_⟩
    · rw [drop_take_succ next above, settled_append]
      simp [settled, lastWrite, wrote]
    · rw [Nat.min_eq_right (by omega), List.drop_eq_nil_of_le (List.length_take_le ..)]
      exact fun _ member => absurd member List.not_mem_nil
  | none =>
    rw [Option.none_or]
    rcases Nat.lt_or_ge position stop with behind | atStop
    · refine ⟨start, stop, lowest, forward, behind, within, value, ?_⟩
      rcases Nat.lt_or_ge position start with still | past
      · rw [Nat.min_eq_left (by omega)] at quiet ⊢
        rw [drop_take_succ next above]
        intro e' member
        rcases List.mem_append.mp member with earlier | last
        · exact quiet e' earlier
        · rw [List.mem_singleton.mp last]
          exact wrote
      · rw [Nat.min_eq_right (by omega)] at quiet ⊢
        exact quiet
    · obtain rfl : stop = position := Nat.le_antisymm atStop ahead
      refine ⟨start, stop + 1, lowest, by omega, Nat.le_refl _, room, ?_, ?_⟩
      · rw [drop_take_succ next forward, settled_append, ← value,
          settled_untouched (by simpa using wrote)]
      · rw [Nat.min_eq_right (by omega)] at quiet ⊢
        exact quiet

/-- At the end of the log the cell holds what one pass from the lowest position gives. -/
theorem finish (r : Restreamed g base log low position shown) (all : position = log.length) :
    shown = settled g (log.drop low) base := by
  obtain ⟨_, start, stop, lowest, forward, ahead, within, value, quiet⟩ := r
  obtain rfl : stop = log.length := by omega
  rw [Nat.min_eq_right (by omega)] at quiet
  rw [List.take_length] at value
  have parts : log.drop low = (log.take start).drop low ++ log.drop start := by
    conv_lhs => rw [← List.take_append_drop start log]
    rw [List.drop_append_of_le_length]
    rw [List.length_take]
    omega
  rw [parts, settled_append, settled_untouched quiet]
  exact value

end Restreamed

end Foundations
