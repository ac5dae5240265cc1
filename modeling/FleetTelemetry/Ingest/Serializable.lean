import FleetTelemetry.Service.Effects

/-!
# Serializability of ingest

Everything a persisted event writes is computed under locks, except for its anomalies:
the prior reading they are judged against is read without one. An interleaving in which
each event committed while its prior reading was still the current row is the serial run
in commit order; one stale reading is enough to lose an anomaly.
-/

namespace FleetTelemetry.Ingest

open Foundations Service

/-- `persist_telemetry` for one event after the other. -/
def persistAll : List TelemetryEvent → Db → Except PyError Db
  | [], db => .ok db
  | event :: events, db =>
    match postgres.run (persistTelemetry event) db with
    | .error e => .error e
    | .ok (_, db') => persistAll events db'

theorem persistAll_snoc (events : List TelemetryEvent) (event : TelemetryEvent) {db db' db'' : Db}
    (earlier : persistAll events db = .ok db')
    (last : postgres.run (persistTelemetry event) db' = .ok ((), db'')) :
    persistAll (events ++ [event]) db = .ok db'' := by
  induction events generalizing db with
  | nil =>
    cases earlier
    simp [persistAll, last]
  | cons first events ih =>
    simp only [List.cons_append, persistAll] at earlier ⊢
    split at earlier
    · cases earlier
    next done => exact ih earlier

/-- A run of events that was played to its end and passed a test there. -/
theorem persistAll_checked (events : List TelemetryEvent) (db : Db) (p : Db → Bool)
    (checked : (match persistAll events db with
      | .ok db' => p db'
      | .error _ => false) = true) : ∃ db', persistAll events db = .ok db' ∧ p db' = true := by
  split at checked
  next db' done => exact ⟨db', done, checked⟩
  · cases checked

/-- The prior reading a transaction was answered. -/
def priorRead : List (Sigma Stmt.Ret) → Option (Option CurrentState)
  | ⟨.selectPrior _, prior⟩ :: _ => some prior
  | _ => none

def isTelemetry : Event → Bool
  | .returned (.postTelemetry _) _ _ _ _ => true
  | .returned _ _ _ _ _ => false
  | _ => true

/-- The prior reading of a committed event was still current when it committed. -/
def readCurrent : Event → Bool
  | .returned (.postTelemetry event) answered _ before _ =>
    decide (priorRead answered = some (before.vehicleCurrentState.get? event.vehicleId))
  | _ => true

/-- With the prior reading current, the committed transaction is the one run alone. -/
theorem run_of_current (event : TelemetryEvent) {db : Db} {answered ws} {u : Unit}
    (replays : Replays postgres (Stmt.lockPolicy.Allowed postgres) db (persistTelemetry event)
      answered ws (.ret u))
    (current : priorRead answered = some (db.vehicleCurrentState.get? event.vehicleId)) :
    postgres.run (persistTelemetry event) db = .ok (u, postgres.writeAll ws db) := by
  rw [persistTelemetry_eq] at replays ⊢
  obtain ⟨prior, ws₁, rest, ws₂, first, later, rfl, rfl⟩ := Replays.exec_inv replays
  simp only [priorRead, Option.some.injEq] at current
  subst current
  split at later
  · exact (Replays.raise_inv later).elim
  next anomalies detected =>
    -- the insert of the raw row sends the same id, so the select could send it too
    have clean : hasNul event.vehicleId = false := by
      obtain ⟨_, _, _, _, inserted, _⟩ := Replays.exec_inv later
      rcases inserted with done | loose
      · have sent := (Stmt.exec_ok done).1
        rw [Stmt.clean_alone rfl] at sent
        simpa [TelemetryEvent.rawEvent] using sent
      · exact loose.elim
    -- the reading was read back once, so it can be read back here
    obtain ⟨rfl, years⟩ : ws₁ = [] ∧ ∀ row, db.vehicleCurrentState.get? event.vehicleId =
        some row → readable row.recordedAt = true := by
      rcases first with done | loose
      · exact (Stmt.execute_selectPrior (Stmt.exec_ok done).2).2
      · exact loose
    have read : postgres.exec (.selectPrior event.vehicleId) db =
        .ok (db.vehicleCurrentState.get? event.vehicleId, []) := by
      exact (Stmt.exec_clean (Stmt.clean_of_alone rfl clean) db).trans
        (Stmt.selectPrior_readable years)
    -- what is sent after the rules is under locks, so only the select could be out of date
    have strict := later.restrict postgres.Answers (fun q => ∀ r ws, ¬Stmt.lockPolicy.loose q r ws)
      (fun _ _ _ _ never answer => answer.resolve_right (never _ _))
      (writeReading_all event (fun _ _ _ => id) (fun _ _ _ _ => id) (fun _ _ _ => id)
        (fun _ _ _ => id) anomalies)
    have ran := strict.run_eq
    simp only [Engine.run, read, detected]
    exact ran

theorem committed_of_current {db : Db} {s : State} (reached : Reachable db s)
    {event : TelemetryEvent} {answered : List (Sigma Stmt.Ret)} {reply : Reply} {before after : Db}
    (logged : .returned (.postTelemetry event) answered reply before after ∈ s.log)
    (current : readCurrent (.returned (.postTelemetry event) answered reply before after) = true) :
    postgres.run (persistTelemetry event) before = .ok ((), after) := by
  obtain ⟨ws, replays, rfl⟩ :=
    (discipline agree_closed).returned transaction_disciplined reached logged
  obtain ⟨_, as, ws₁, _, ws₂, body, last, rfl, rfl⟩ := Replays.bind_inv replays
  obtain ⟨_, rfl, rfl⟩ := Replays.ret_inv last
  simp only [List.append_nil] at current ⊢
  exact run_of_current event body (by simpa [readCurrent] using current)

/-- Every interleaving of telemetry in which each committed event's prior reading was
current is the serial run in commit order, and judged each event against the reading
that precedes it there. -/
theorem serializable_of_current (db : Db) (s : State) (reached : Reachable db s)
    (telemetry : ∀ e ∈ s.log, isTelemetry e = true)
    (current : ∀ e ∈ s.log, readCurrent e = true) :
    persistAll (committedEvents s.log) db = .ok s.db ∧
    ∀ event answered reply before after,
      .returned (.postTelemetry event) answered reply before after ∈ s.log →
      ∃ anomalies,
        detectAnomalies event (before.vehicleCurrentState.get? event.vehicleId) =
          .ok anomalies ∧
        after.anomalies = before.anomalies ++ anomalies.map event.anomaly := by
  constructor
  · refine Chain.invariant (fun log db' => persistAll (committedEvents log) db = .ok db')
      (fun e => e ∈ s.log) (Foundations.Reachable.chain reached) (fun e member => member) rfl ?_
    -- along the log: each commit extends the serial run of those before it by one event
    intro log e logged serial
    have known := telemetry e logged
    cases e with
    | returned call answered reply before after =>
      cases call with
      | postTelemetry event =>
        rw [committedEvents_returned]
        exact persistAll_snoc _ _ serial (committed_of_current reached logged (current _ logged))
      | postVehicleStatus vehicleId update => simp [isTelemetry] at known
      | sweep now => simp [isTelemetry] at known
    | raised call error db' => rwa [committedEvents_other _ _ (by simp)]
    | outside before after =>
      obtain ⟨_, impossible⟩ := Foundations.Reachable.outside_logged reached logged
      exact impossible.elim
  · intro event answered reply before after logged
    have effect := ReachableWith.explained agree_closed reached _ logged
    have latest := current _ logged
    cases effect with
    | @ingested _ prior anomalies rest _ read detected =>
      simp only [readCurrent, priorRead, decide_eq_true_eq, Option.some.injEq] at latest
      rw [← latest]
      exact ⟨anomalies, detected, rfl⟩

/-- An idle reading of one vehicle with the given battery level. -/
def batteryReading (batteryPct : Double) (recordedAt : Int)
    (range : BatteryBounds batteryPct) : TelemetryEvent :=
  { vehicleId := "agv-1"
    status := .idle
    batteryPct
    recordedAt := .aware recordedAt
    vehicleId_length := agv1_length
    batteryPct_range := range
    speedMps_range := speedMps_standing }

def battery40 : TelemetryEvent := batteryReading (.finite 40) 0 (by decide +kernel)
def battery45 : TelemetryEvent := batteryReading (.finite 45) 1000000 (by decide +kernel)

/-- The second event reads its prior reading after the first one's commit. -/
theorem serializable_of_current_handover :
    ∃ s, Reachable Db.seeded s ∧ (committedEvents s.log).length = 2 ∧
      persistAll (committedEvents s.log) Db.seeded = .ok s.db ∧
      ∀ event answered reply before after,
        .returned (.postTelemetry event) answered reply before after ∈ s.log →
        ∃ anomalies,
          detectAnomalies event (before.vehicleCurrentState.get? event.vehicleId) =
            .ok anomalies ∧
          after.anomalies = before.anomalies ++ anomalies.map event.anomaly := by
  have ⟨s, reached, held⟩ := exists_reachable closed [0, 1] Db.seeded
    [.begin 0 (.postTelemetry battery40), .begin 1 (.postTelemetry battery45),
      .advance 0, .advance 0, .advance 0, .advance 0,
      .advance 1, .advance 1, .advance 1, .advance 1, .advance 1]
    (fun s => decide ((committedEvents s.log).length = 2) &&
      (s.log.all isTelemetry && s.log.all readCurrent))
    (by decide +kernel)
  simp only [Bool.and_eq_true, decide_eq_true_eq, List.all_eq_true] at held
  exact ⟨s, reached, held.1,
    serializable_of_current Db.seeded s reached held.2.1 held.2.2⟩

/-- Two overlapping events of a new vehicle: both read that there is no prior reading, so
the rise from 40 to 45 percent is not flagged, which it is in the serial run. -/
theorem overlap_loses_batteryRising :
    ∃ s serial, Reachable Db.seeded s ∧ (∀ e ∈ s.log, isTelemetry e = true) ∧
      persistAll (committedEvents s.log) Db.seeded = .ok serial ∧
      s.db.anomalies = [] ∧
      serial.anomalies =
        [⟨"agv-1", .batteryRising, some (.rising (.finite 40) (.finite 45)), 1000000⟩] ∧
      ¬s.db.anomalies.Perm serial.anomalies := by
  have ⟨s, reached, held⟩ := exists_reachable closed [0, 1] Db.seeded
    -- both read the missing row before either of them writes it
    [.begin 0 (.postTelemetry battery40), .begin 1 (.postTelemetry battery45),
      .advance 0, .advance 1, .advance 0, .advance 0, .advance 0, .advance 1, .advance 1,
      .advance 1]
    (fun s => s.log.all isTelemetry && decide (s.db.anomalies = []) &&
      match persistAll (committedEvents s.log) Db.seeded with
      | .ok serial => decide (serial.anomalies =
          [⟨"agv-1", .batteryRising, some (.rising (.finite 40) (.finite 45)), 1000000⟩])
      | .error _ => false)
    (by decide +kernel)
  simp only [Bool.and_eq_true, decide_eq_true_eq, List.all_eq_true] at held
  obtain ⟨⟨telemetry, lost⟩, flagged⟩ := held
  split at flagged
  next serial ran =>
    have flagged := of_decide_eq_true flagged
    refine ⟨s, serial, reached, telemetry, ran, lost, flagged, ?_⟩
    rw [lost, flagged]
    simp
  · cases flagged

end FleetTelemetry.Ingest
