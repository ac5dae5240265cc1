import FleetTelemetry.Frontend.Live

/-!
# The counters as a stream

A zone's counter is raised under the lock of its row, so the journal holds its values in
order and without a gap, whatever else is committed in between. The consumer publishes
them as they come: a dashboard could tell a lost event from the numbers alone.
-/

namespace FleetTelemetry.Frontend

open Foundations
open Cdc (Numerals Message PgMessage)
open Service (State assignsMission)

/-- The `k` numbers after `n`. -/
def numbersAfter : Int → Nat → List Int
  | _, 0 => []
  | n, k + 1 => (n + 1) :: numbersAfter (n + 1) k

theorem numbersAfter_append (n : Int) (j k : Nat) :
    numbersAfter n (j + k) = numbersAfter n j ++ numbersAfter (n + j) k := by
  induction j generalizing n with
  | zero => simp [numbersAfter]
  | succ j ih =>
    have shift : n + 1 + (j : Int) = n + (j + 1 : Nat) := by omega
    rw [Nat.succ_add, numbersAfter, numbersAfter, ih, shift, List.cons_append]

/-- The values the writes give the zone: every number from the next one on. -/
def CountsUp (z : String) (db : Db) (ws : List Write) : Prop :=
  (db.zoneCounts.get? z = none ∧ ws.filterMap (Write.zone z) = []) ∨
    ∃ (n : Int) (k : Nat), db.zoneCounts.get? z = some n ∧
      (db.after ws).zoneCounts.get? z = some (n + k) ∧
      ws.filterMap (Write.zone z) = numbersAfter n k

section Writes

variable {z : String} {db : Db}

theorem zone_after_untouched {ws : List Write} (untouched : ∀ w ∈ ws, w.zone z = none) :
    (db.after ws).zoneCounts.get? z = db.zoneCounts.get? z := by
  rw [zone_after, settled_untouched untouched]

theorem CountsUp.untouched {ws : List Write} (untouched : ∀ w ∈ ws, w.zone z = none) :
    CountsUp z db ws := by
  have silent : ws.filterMap (Write.zone z) = [] := List.filterMap_eq_nil_iff.mpr untouched
  cases found : db.zoneCounts.get? z with
  | none => exact .inl ⟨found, silent⟩
  | some n =>
    refine .inr ⟨n, 0, found, ?_, silent⟩
    rw [zone_after_untouched untouched, found, Int.natCast_zero, Int.add_zero]

theorem CountsUp.append {ws ws' : List Write} (first : CountsUp z db ws)
    (second : CountsUp z (db.after ws) ws') : CountsUp z db (ws ++ ws') := by
  have after : db.after (ws ++ ws') = (db.after ws).after ws' := List.foldl_append
  -- a counter that is not there at first is not made by any write
  rcases first with ⟨absent, silent⟩ | ⟨n, j, found, reached, values⟩
  · have still : (db.after ws).zoneCounts.get? z = none := by
      rw [zone_after_untouched (List.filterMap_eq_nil_iff.mp silent), absent]
    rcases second with ⟨_, silent'⟩ | ⟨n, k, found, _⟩
    · left
      rw [List.filterMap_append, silent, silent']
      exact ⟨absent, rfl⟩
    · rw [still] at found
      cases found
  · rcases second with ⟨absent, _⟩ | ⟨n', k, found', reached', values'⟩
    · rw [reached] at absent
      cases absent
    -- the second stretch counts on from where the first has ended
    · rw [reached, Option.some.injEq] at found'
      subst found'
      refine .inr ⟨n, j + k, found, ?_, ?_⟩
      · rw [after, reached', Nat.cast_add, Int.add_assoc]
      · rw [List.filterMap_append, values, values', numbersAfter_append]

theorem CountsUp.transfer {db' : Db} {ws : List Write} (counts : CountsUp z db' ws)
    (same : db'.zoneCounts.get? z = db.zoneCounts.get? z) : CountsUp z db ws := by
  unfold CountsUp at counts ⊢
  rw [zone_after, same] at counts
  rw [zone_after]
  exact counts

/-- No other statement writes a counter. -/
theorem zone_untouched {q : Stmt} {r : q.Ret} {ws : List Write} (done : q.execute db = .ok (r, ws))
    (other : ∀ zone, q ≠ .incrementZone zone) : ∀ w ∈ ws, w.zone z = none := by
  intro w member
  have shape := Stmt.execute_writes done w member
  cases w with
  | putZone zone n =>
    obtain ⟨zoneId, rfl, _⟩ := shape
    exact (other zoneId rfl).elim
  | putCurrent | appendAnomaly | appendRaw | putVehicle | putMission | appendMaintenance => rfl

theorem countsUp_incrementZone {zone : PyStr} {r : Unit} {ws : List Write}
    (done : (Stmt.incrementZone zone).execute db = .ok (r, ws)) : CountsUp z db ws := by
  simp only [Stmt.execute] at done
  split at done
  next absent =>
    cases done
    exact .untouched fun _ member => absurd member List.not_mem_nil
  next n found =>
    split at done
    · cases done
    · cases done
      by_cases same : z = zone.text
      · subst same
        refine .inr ⟨n, 1, found, ?_, ?_⟩
        · rw [zone_after]
          simp [settled, lastWrite, Write.zone]
        · simp [numbersAfter, Write.zone]
      · refine .untouched (List.forall_mem_singleton.mpr ?_)
        exact if_neg same

/-- A statement counts up under its lock, or writes no counter. -/
theorem countsUp_allowed {q : Stmt} {r : q.Ret} {ws : List Write}
    (allowed : Stmt.lockPolicy.Allowed postgres db q r ws) : CountsUp z db ws := by
  rcases allowed with done | loose
  · have executed := (Stmt.exec_ok done).2
    by_cases counter : ∃ zone, q = .incrementZone zone
    · obtain ⟨zone, rfl⟩ := counter
      exact countsUp_incrementZone executed
    · exact .untouched (zone_untouched executed fun zone same => counter ⟨zone, same⟩)
  · refine .untouched ?_
    -- of the statements that may see older rows, none writes a counter
    cases q with
    | selectPrior v =>
      obtain ⟨rfl, _⟩ := loose
      exact fun _ member => absurd member List.not_mem_nil
    | insertCommsLoss detail now cutoff =>
      intro w member
      obtain ⟨row, rfl⟩ := loose w member
      rfl
    | _ => exact loose.elim

theorem countsUp_replays {A : Type} {t u : Transaction A} {answered : List (Sigma Stmt.Ret)}
    {ws : List Write}
    (replays : Replays postgres (Stmt.lockPolicy.Allowed postgres) db t answered ws u) :
    CountsUp z db ws := by
  induction replays with
  | done db t => exact .untouched fun _ member => absurd member List.not_mem_nil
  | step first _ ih => exact (countsUp_allowed first).append ih

end Writes

section Runs

/-- The journal counts the zone up from the first state to the committed one. -/
structure Counted (z : String) (db : Db) (ws : List Write) (db' : Db) : Prop where
  counts : CountsUp z db ws
  zone : db'.zoneCounts.get? z = (db.after ws).zoneCounts.get? z

theorem journal_counted {db : Db} {s : State} {ws : List Write}
    (journal : Journal postgres transaction assignsMission db s ws) (z : String) :
    Counted z db ws s.db := by
  have start : Counted z db [] db :=
    ⟨.untouched fun _ member => absurd member List.not_mem_nil, rfl⟩
  refine Journal.invariant ((discipline agree_assignsMission).invariants
    transaction_disciplined) trivial start ?_ ?_ journal
  · intro ws db' o reply _ serial point counted
    -- the writes of the session replay on what is committed when it commits
    have replays := serial.2
    rw [point] at replays
    have own : CountsUp z db' o.pending :=
      countsUp_replays (replays.mono fun _ _ _ _ covered => covered.allowed)
    have after : db.after (ws ++ o.pending) = (db.after ws).after o.pending := List.foldl_append
    have view : postgres.view o db' = db'.after o.pending := rfl
    refine ⟨counted.counts.append (own.transfer counted.zone), ?_⟩
    rw [view, after, zone_after db' o.pending, counted.zone, zone_after (db.after ws) o.pending]
  · intro ws held db' db'' counted allowed
    obtain ⟨id, m, _, _, _, rfl, _⟩ := allowed
    exact ⟨counted.counts, counted.zone⟩

end Runs

/-- The count a message announces for the zone. -/
def announced (z : String) (message : Message) : Option Int :=
  match message.payload with
  | [("zone_id", .string zone), ("entry_count", .integer n)] =>
    if message.type = Cdc.zoneCountChanged ∧ z = zone then some n else none
  | _ => none

theorem announced_message (texts : Texts) (z : String) (w : Write) :
    ((Row.ofWrite texts w).map Row.message).bind (announced z) = w.zone z := by
  cases w with
  | putZone zone n => simp [Row.ofWrite, Row.message, announced, Write.zone]
  | putCurrent v row => rfl
  | appendAnomaly a => rfl
  | appendRaw | putVehicle | putMission | appendMaintenance => rfl

theorem announced_messages (texts : Texts) (z : String) (ws : List Write) :
    (messages texts ws).filterMap (announced z) = ws.filterMap (Write.zone z) := by
  rw [messages, List.filterMap_map, List.filterMap_filterMap]
  congr 1
  funext w
  rw [← announced_message texts z w]
  cases Row.ofWrite texts w <;> rfl

/-- In every interleaving, the messages published of a zone announce every number from its
first count to the committed one, each once and in order. -/
theorem zoneEvents_consecutive (num : Numerals) (texts : Texts) (db : Db) (s : State)
    (ws : List Write) (journal : Journal postgres transaction assignsMission db s ws)
    (msgs : List PgMessage) (stream : Stream texts [] msgs ws)
    (printed : ∀ w ∈ ws, w.Printed num texts) (z : String) (n : Int)
    (start : db.zoneCounts.get? z = some n) :
    ∃ (k : Nat) (batch : List Message), publishes num msgs = .ok batch ∧
      s.db.zoneCounts.get? z = some (n + k) ∧
      batch.filterMap (announced z) = numbersAfter n k := by
  obtain ⟨counts, zone⟩ := journal_counted journal z
  -- the zone has a row at the start, so its writes are consecutive numbers
  rcases counts with ⟨absent, _⟩ | ⟨n', k, found, reached, values⟩
  · rw [start] at absent
    cases absent
  · rw [start, Option.some.injEq] at found
    subst found
    refine ⟨k, _, publishes_stream stream printed, zone.trans reached, ?_⟩
    rw [announced_messages, values]

/-- The aisle is entered for the first time, while its vehicle is streamed before it. -/
theorem zoneEvents_consecutive_aisle : ∃ s,
    Journal postgres transaction assignsMission Db.seeded s entryWrites ∧
    ∃ (k : Nat) (batch : List Message),
      publishes entryNumerals [.relation currentStateRelation, currentStateChange.message,
          .relation Cdc.zoneCountsRelation, zoneCountChange.message] = .ok batch ∧
        s.db.zoneCounts.get? "aisle_a" = some (0 + (k : Int)) ∧
        batch.filterMap (announced "aisle_a") = numbersAfter 0 k := by
  obtain ⟨s, journal⟩ := entry_journaled
  have empty : Db.seeded.zoneCounts.get? "aisle_a" = some 0 := by decide +kernel
  exact ⟨s, journal, zoneEvents_consecutive entryNumerals entryTexts Db.seeded s entryWrites
    journal _ (.unpublished rfl (.silent rfl (.change (carries_currentState _ rfl) (.silent rfl
      (.change (carries_zoneCount _ rfl) (.done _))))))
    (fun w member => (entry_legible w member).printed) "aisle_a" 0 empty⟩

end FleetTelemetry.Frontend
