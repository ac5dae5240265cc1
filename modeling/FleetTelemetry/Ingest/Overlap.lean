import FleetTelemetry.Ingest.CommsLoss

/-!
# Overlapping sweeps

The guard of a sweep is part of the statement that inserts, so it sees what had committed
when that statement ran, and no index backs it. Sweeps insert at most one row per current
reading as long as each of them still finds its vehicles unflagged when it commits.
-/

namespace FleetTelemetry.Ingest

open Foundations Service

def isEventOf (vehicleId : String) : Event → Bool
  | .returned (.postTelemetry event) _ _ _ _ => decide (event.vehicleId = vehicleId)
  | _ => false

/-- How many comms-loss rows of the vehicle became visible with the event. -/
def insertedBy (vehicleId : String) (e : Event) : Nat :=
  (commsLossOf vehicleId e.after).length - (commsLossOf vehicleId e.before).length

/-- Wherever the vehicle has no committed event, at most one row is inserted for it. -/
def OneFlagPerReading (vehicleId : String) (log : List Event) : Prop :=
  ∀ earlier during later, log = earlier ++ during ++ later →
    (∀ e ∈ during, isEventOf vehicleId e = false) →
    (during.map (insertedBy vehicleId)).sum ≤ 1

/-- Each vehicle a sweep is about to flag has, in the state the sweep commits in, a current
reading no later than the sweep and no comms-loss row dated since that reading. -/
def stillUnflagged (db : Db) (o : Session) : Bool :=
  match o.call with
  | .sweep now => o.pending.all fun
    | .appendAnomaly row => (db.vehicleCurrentState.get? row.vehicleId).any fun reading =>
      decide (reading.recordedAt ≤ now) &&
        decide (¬FlaggedSince row.vehicleId db reading.recordedAt)
    | _ => true
  | _ => true

theorem stillUnflagged_flag {db : Db} {o : Session} {now : Int} {v : String}
    (unflagged : stillUnflagged db o = true) (call : o.call = .sweep now)
    (pending : .appendAnomaly (flag now v) ∈ o.pending) :
    ∃ reading, db.vehicleCurrentState.get? v = some reading ∧ reading.recordedAt ≤ now ∧
      ¬FlaggedSince v db reading.recordedAt := by
  rw [stillUnflagged, call] at unflagged
  have passed := List.all_eq_true.mp unflagged _ pending
  simp only [Option.any_eq_true, Bool.and_eq_true] at passed
  obtain ⟨reading, found, notLater, unflagged⟩ := passed
  exact ⟨reading, found, of_decide_eq_true notLater, of_decide_eq_true unflagged⟩

/-- The runs in which every sweep commits so. -/
abbrev CarefullyReachable (db : Db) (s : State) : Prop :=
  ReachableWhere (fun db o => stillUnflagged db o = true) postgres transaction closed db s

theorem exists_carefullyReachable (transactions : List Nat) (db : Db) (moves : List (Move Call))
    (p : State → Bool)
    (played : (State.performAllWhere stillUnflagged postgres transaction transactions (.start db)
      moves).map p = some true) : ∃ s, CarefullyReachable db s ∧ p s = true :=
  State.exists_reachableWhere played

/-- What is known of a committed event of such a run. -/
def Careful (vehicleId : String) : Event → Prop
  | .returned (.sweep now) _ _ before after =>
    ∃ seen, after = { before with anomalies := before.anomalies ++ flags now seen } ∧
      (vehicleId ∈ silentVehicles (now - commsLossTimeoutMicros) seen →
        ∃ reading, before.vehicleCurrentState.get? vehicleId = some reading ∧
          reading.recordedAt ≤ now ∧ ¬FlaggedSince vehicleId before reading.recordedAt)
  | e => TelemetryExplained e

theorem careful_logged {db : Db} {s : State} (reached : CarefullyReachable db s) (v : String) :
    ∀ e ∈ s.log, Careful v e := by
  intro e logged
  have explained := telemetry_logged (ReachableWhere.reachable reached) e logged
  cases e with
  | raised | outside => exact explained
  | returned call answered reply before after =>
    cases call with
    | postTelemetry | postVehicleStatus => exact explained
    | sweep now =>
      -- only a sweep writes flags; the state it commits to is the one it is judged in
      obtain ⟨o, call, point, replays, unflagged, rfl⟩ :=
        replays_invariants.returned_where trivial reached logged
      rw [call, point] at replays
      obtain ⟨seen, pending⟩ := sweep_writes replays
      refine ⟨seen, by rw [Engine.view, pending, writeAll_appendAnomaly], ?_⟩
      intro silent
      refine stillUnflagged_flag unflagged call ?_
      rw [pending]
      exact List.mem_map_of_mem (List.mem_map_of_mem silent)

/-- One committed event that is none of the vehicle's own either inserts nothing for it or
the one row that its guard finds from then on. -/
theorem insertedBy_step {v : String} {e : Event} (careful : Careful v e)
    (other : isEventOf v e = false) :
    e.after.vehicleCurrentState.get? v = e.before.vehicleCurrentState.get? v ∧
    ((insertedBy v e = 0 ∧ commsLossOf v e.after = commsLossOf v e.before) ∨
      insertedBy v e = 1 ∧ ∃ reading, e.before.vehicleCurrentState.get? v = some reading ∧
        ¬FlaggedSince v e.before reading.recordedAt ∧
          FlaggedSince v e.after reading.recordedAt) := by
  have quiet : ∀ {before after : Db}, commsLossOf v after = commsLossOf v before →
      (commsLossOf v after).length - (commsLossOf v before).length = 0 := by
    intro before after same
    rw [same, Nat.sub_self]
  cases e with
  | outside => exact careful.elim
  | raised => exact ⟨rfl, .inl ⟨quiet rfl, rfl⟩⟩
  | returned call answered reply before after =>
    cases call with
    | postTelemetry event =>
      have apart : event.vehicleId ≠ v := by simpa [isEventOf] using other
      have rows := commsLossOf_effect v careful (by simp)
      refine ⟨current_effect v careful ?_, .inl ⟨quiet rows, rows⟩⟩
      rintro _ ⟨rfl⟩
      exact apart
    | postVehicleStatus vehicleId update =>
      have rows := commsLossOf_effect v careful (by simp)
      exact ⟨current_effect v careful (by simp), .inl ⟨quiet rows, rows⟩⟩
    | sweep now =>
      obtain ⟨seen, rfl, unflagged⟩ := careful
      have rows := commsLossOf_flags v now before seen
      refine ⟨rfl, ?_⟩
      -- the state the sweep has seen decides, and `Careful` says it was not out of date
      by_cases silent : v ∈ silentVehicles (now - commsLossTimeoutMicros) seen
      · right
        rw [if_pos silent] at rows
        obtain ⟨reading, found, notLater, unguarded⟩ := unflagged silent
        refine ⟨by simp [insertedBy, Event.after, Event.before, rows], reading, found, unguarded,
          flag now v, ?_, notLater⟩
        simp [Event.after, rows]
      · left
        rw [if_neg silent, List.append_nil] at rows
        exact ⟨quiet rows, rows⟩

/-- Through a stretch without events of the vehicle: once a row has been inserted, the
guard on the unchanged reading finds it. -/
theorem flags_during {v : String} {db db' : Db} {during : List Event} (chain : Chain db during db')
    (careful : ∀ e ∈ during, Careful v e ∧ isEventOf v e = false) :
    db'.vehicleCurrentState.get? v = db.vehicleCurrentState.get? v ∧
    (during.map (insertedBy v)).sum ≤ 1 ∧
    ((during.map (insertedBy v)).sum ≠ 0 → ∃ reading,
      db.vehicleCurrentState.get? v = some reading ∧ FlaggedSince v db' reading.recordedAt) := by
  refine chain.invariant (fun log state =>
    state.vehicleCurrentState.get? v = db.vehicleCurrentState.get? v ∧
    (log.map (insertedBy v)).sum ≤ 1 ∧
    ((log.map (insertedBy v)).sum ≠ 0 → ∃ reading,
      db.vehicleCurrentState.get? v = some reading ∧
        FlaggedSince v state reading.recordedAt)) _ careful ?_ ?_
  · simp
  · rintro log e ⟨careful, other⟩ ⟨same, atMost, guarded⟩
    rw [List.map_append, List.sum_append, List.map_singleton, List.sum_singleton]
    obtain ⟨same', ⟨none, rows⟩ | ⟨one, reading, found, unflagged, flagged⟩⟩ :=
      insertedBy_step careful other
    · rw [none, Nat.add_zero]
      refine ⟨same'.trans same, atMost, fun some => ?_⟩
      obtain ⟨reading, found, flagged⟩ := guarded some
      exact ⟨reading, found, by simpa only [FlaggedSince, rows] using flagged⟩
    -- the guard failed on this reading, so nothing had been inserted for it before
    · have first : (log.map (insertedBy v)).sum = 0 := by
        by_contra some
        obtain ⟨reading', found', flagged'⟩ := guarded some
        rw [same, found', Option.some.injEq] at found
        exact unflagged (found ▸ flagged')
      rw [first, one]
      exact ⟨same'.trans same, Nat.le_refl 1, fun _ => ⟨reading, same ▸ found, flagged⟩⟩

/-- In every run whose sweeps still find their vehicles unflagged when they commit, at most
one comms-loss row per vehicle and current reading is inserted. -/
theorem oneFlag_of_unflagged (db : Db) (s : State) (reached : CarefullyReachable db s)
    (v : String) : OneFlagPerReading v s.log := by
  intro earlier during later whole quiet
  have chain := Reachable.chain (ReachableWhere.reachable reached)
  rw [whole] at chain
  obtain ⟨_, first, _⟩ := chain.split
  obtain ⟨_, _, stretch⟩ := first.split
  refine (flags_during stretch ?_).2.1
  intro e member
  refine ⟨careful_logged reached v e ?_, quiet e member⟩
  rw [whole]
  exact List.mem_append_left _ (List.mem_append_right _ member)

/-- The second sweep begins before the first commits, but runs its statement after. -/
theorem oneFlag_of_unflagged_sweeps :
    ∃ s, CarefullyReachable .seeded s ∧
      (commsLossOf "agv-1" s.db).length = 1 ∧ OneFlagPerReading "agv-1" s.log := by
  have ⟨s, reached, once⟩ := exists_carefullyReachable [0, 1] Db.seeded
    [.begin 0 (.postTelemetry (statusReading "agv-1" .moving 0 (by decide))),
      .advance 0, .advance 0, .advance 0, .advance 0,
      .begin 0 (.sweep 10000000), .begin 1 (.sweep 10000000),
      .advance 0, .advance 0, .advance 1, .advance 1]
    (fun s => decide ((commsLossOf "agv-1" s.db).length = 1))
    (by decide +kernel)
  exact ⟨s, reached, by simpa using once, oneFlag_of_unflagged Db.seeded s reached "agv-1"⟩

/-- Two sweeps run their statements before either commits, and both flag the vehicle. -/
theorem oneFlag_overlap :
    ¬∀ (s : State), Reachable .seeded s → ∀ v, OneFlagPerReading v s.log := by
  intro all
  have ⟨s, reached, twice⟩ := exists_reachable closed [0, 1] Db.seeded
    [.begin 0 (.postTelemetry (statusReading "agv-1" .moving 0 (by decide))),
      .advance 0, .advance 0, .advance 0, .advance 0,
      .begin 0 (.sweep 10000000), .begin 1 (.sweep 10000000),
      .advance 0, .advance 1, .advance 0, .advance 1]
    (fun s => (s.log.drop 1).all (fun e => !isEventOf "agv-1" e) &&
      decide (((s.log.drop 1).map (insertedBy "agv-1")).sum = 2))
    (by decide +kernel)
  simp only [Bool.and_eq_true, List.all_eq_true, Bool.not_eq_true', decide_eq_true_eq] at twice
  have atMost := all s reached "agv-1" (s.log.take 1) (s.log.drop 1) []
    (by rw [List.append_nil, List.take_append_drop]) twice.1
  omega

end FleetTelemetry.Ingest
