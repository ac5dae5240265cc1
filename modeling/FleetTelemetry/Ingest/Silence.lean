import FleetTelemetry.Ingest.CommsLoss

/-!
# Silence episodes

Runs of events and sweeps served one after another. A sweep judges a vehicle by its
current row, which the last committed event wrote, and re-arms when that row's instant
passes the vehicle's last flag. Both compare instants of different clocks, so neither an
event committed late nor one recorded before the last flag is told apart from silence.
-/

namespace FleetTelemetry.Ingest

open Foundations Service

theorem serveAll_invariant {P : Db → Prop} {db : Db} (start : P db)
    (preserved : ∀ call before after, TelemetryEffect call before after → P before → P after)
    (calls : List Call) : P (serveAll db calls) := by
  induction calls generalizing db with
  | nil => exact start
  | cons call calls ih =>
    have next : P (serve db call).2 := by
      rcases telemetry_served db call with same | effect
      · rwa [same]
      · exact preserved call db _ effect start
    exact ih next

section Episodes

/-- No event of the vehicle is accepted while the calls are served. -/
def Undisturbed (vehicleId : String) : Db → List Call → Prop
  | _, [] => True
  | db, call :: calls =>
    (∀ event, call = .postTelemetry event → event.vehicleId = vehicleId →
      (serve db call).1 ≠ .created) ∧ Undisturbed vehicleId (serve db call).2 calls

/-- How many comms-loss rows of the vehicle the call inserts, if it is a sweep. -/
def sweptRow (vehicleId : String) (db : Db) : Call → Nat
  | .sweep now =>
    (commsLossOf vehicleId (serve db (.sweep now)).2).length - (commsLossOf vehicleId db).length
  | _ => 0

/-- How many comms-loss rows of the vehicle the sweeps among the calls insert. -/
def sweptRows (vehicleId : String) : Db → List Call → Nat
  | _, [] => 0
  | db, call :: calls =>
    sweptRow vehicleId db call + sweptRows vehicleId (serve db call).2 calls

variable {v : String} {row : CurrentState}

theorem serve_spares {db : Db} {call : Call} (other : ∀ now, call ≠ .sweep now)
    (refused : ∀ event, call = .postTelemetry event → event.vehicleId = v →
      (serve db call).1 ≠ .created) :
    commsLossOf v (serve db call).2 = commsLossOf v db ∧
      (serve db call).2.vehicleCurrentState.get? v = db.vehicleCurrentState.get? v := by
  rcases telemetry_served db call with same | effect
  · rw [same]
    exact ⟨rfl, rfl⟩
  · refine ⟨commsLossOf_effect v effect other, ?_⟩
    by_cases own : ∃ event, call = .postTelemetry event ∧ event.vehicleId = v
    -- an event of the vehicle itself has been refused, and left no trace
    · obtain ⟨event, rfl, owner⟩ := own
      have failed := refused event rfl owner
      rw [serve_postTelemetry] at failed ⊢
      split
      · simp_all
      · rfl
    · refine current_effect v effect ?_
      intro event call owner
      exact own ⟨event, call, owner⟩

theorem serve_sweep_flags (db : Db) (now : Int) (found : db.vehicleCurrentState.get? v = some row) :
    (serve db (.sweep now)).2.vehicleCurrentState.get? v = some row ∧
    commsLossOf v (serve db (.sweep now)).2 = commsLossOf v db ++
      if row.recordedAt < now - commsLossTimeoutMicros ∧ ¬FlaggedSince v db row.recordedAt
      then [flag now v] else [] := by
  have silent : v ∈ silentVehicles (now - commsLossTimeoutMicros) db ↔
      row.recordedAt < now - commsLossTimeoutMicros ∧ ¬FlaggedSince v db row.recordedAt := by
    simp [mem_silentVehicles, found]
  rw [serve_sweep]
  refine ⟨found, ?_⟩
  rw [commsLossOf_flags]
  simp only [silent]

/-- The call is a sweep that finds an instant too old. -/
def Due (instant : Int) (call : Call) : Prop :=
  ∃ now, call = .sweep now ∧ instant < now - commsLossTimeoutMicros

/-- One call while the reading stays current: a due sweep inserts the row that the guard of
all later ones then finds. -/
theorem sweptRow_step {db : Db} {call : Call} (found : db.vehicleCurrentState.get? v = some row)
    (refused : ∀ event, call = .postTelemetry event → event.vehicleId = v →
      (serve db call).1 ≠ .created) :
    (serve db call).2.vehicleCurrentState.get? v = some row ∧
    (Due row.recordedAt call → ¬FlaggedSince v db row.recordedAt →
      sweptRow v db call = 1 ∧ FlaggedSince v (serve db call).2 row.recordedAt) ∧
    (¬Due row.recordedAt call ∨ FlaggedSince v db row.recordedAt →
      sweptRow v db call = 0 ∧
        (FlaggedSince v (serve db call).2 row.recordedAt ↔ FlaggedSince v db row.recordedAt)) := by
  by_cases sweep : ∃ now, call = .sweep now
  · obtain ⟨now, rfl⟩ := sweep
    obtain ⟨found', rows⟩ := serve_sweep_flags db now found
    have due : Due row.recordedAt (.sweep now) ↔
        row.recordedAt < now - commsLossTimeoutMicros := by
      simp [Due]
    refine ⟨found', fun old unflagged => ?_, fun quiet => ?_⟩
    -- the new row is dated with the sweep, which is later than the reading
    · rw [if_pos ⟨due.mp old, unflagged⟩] at rows
      refine ⟨by simp [sweptRow, rows], flag now v, by simp [rows], ?_⟩
      have elapsed := due.mp old
      have timeout : 0 ≤ commsLossTimeoutMicros := by decide
      simp only [flag]
      omega
    · have none : ¬(row.recordedAt < now - commsLossTimeoutMicros ∧
          ¬FlaggedSince v db row.recordedAt) := by
        rw [due] at quiet
        tauto
      rw [if_neg none, List.append_nil] at rows
      exact ⟨by simp [sweptRow, rows], by simp only [FlaggedSince, rows]⟩
  · have other : ∀ now, call ≠ .sweep now := fun now equal => sweep ⟨now, equal⟩
    obtain ⟨rows, same⟩ := serve_spares other refused
    have none : sweptRow v db call = 0 := by
      cases call with
      | sweep now => exact (other now rfl).elim
      | postTelemetry | postVehicleStatus => rfl
    refine ⟨same.trans found, fun old => ?_, fun _ => ⟨none, by simp only [FlaggedSince, rows]⟩⟩
    obtain ⟨now, equal, _⟩ := old
    exact (other now equal).elim

/-- While a reading stays current, the sweeps insert one row if one of them finds it too
old and no row was dated since, and otherwise none. -/
theorem sweptRows_eq (calls : List Call) (db : Db)
    (found : db.vehicleCurrentState.get? v = some row) (undisturbed : Undisturbed v db calls) :
    ((∃ call ∈ calls, Due row.recordedAt call) → ¬FlaggedSince v db row.recordedAt →
      sweptRows v db calls = 1) ∧
    ((¬∃ call ∈ calls, Due row.recordedAt call) ∨ FlaggedSince v db row.recordedAt →
      sweptRows v db calls = 0) := by
  induction calls generalizing db with
  | nil => simp [sweptRows]
  | cons call calls ih =>
    obtain ⟨refused, rest⟩ := undisturbed
    obtain ⟨found', inserts, spares⟩ := sweptRow_step found refused
    obtain ⟨later, none⟩ := ih _ found' rest
    rw [sweptRows]
    constructor
    -- the first due sweep inserts, and its row keeps all later ones from inserting
    · intro due unflagged
      by_cases here : Due row.recordedAt call
      · obtain ⟨one, flagged⟩ := inserts here unflagged
        rw [one, none (.inr flagged)]
      · obtain ⟨zero, same⟩ := spares (.inl here)
        have due' : ∃ call ∈ calls, Due row.recordedAt call := by simpa [here] using due
        rw [zero, later due' (same.not.mpr unflagged)]
    · intro quiet
      have here : ¬Due row.recordedAt call ∨ FlaggedSince v db row.recordedAt := by
        rcases quiet with never | flagged
        · exact .inl fun due => never ⟨call, List.mem_cons_self, due⟩
        · exact .inr flagged
      obtain ⟨zero, same⟩ := spares here
      rw [zero, none]
      rcases quiet with never | flagged
      · left
        rintro ⟨call', listed, due⟩
        exact never ⟨call', List.mem_cons_of_mem _ listed, due⟩
      · exact .inr (same.mpr flagged)

theorem accepted_state {db : Db} {event : TelemetryEvent}
    (accepted : (serve db (.postTelemetry event)).1 = .created) :
    (serve db (.postTelemetry event)).2.vehicleCurrentState.get? event.vehicleId =
      some event.currentState ∧
    commsLossOf event.vehicleId (serve db (.postTelemetry event)).2 =
      commsLossOf event.vehicleId db := by
  rw [serve_postTelemetry] at accepted ⊢
  split at accepted
  next done =>
    obtain ⟨anomalies, detected, rfl⟩ := persistTelemetry_run event done
    dsimp only
    refine ⟨?_, commsLossOf_effect _ (.ingested db detected) (by simp)⟩
    simp [FleetTelemetry.ingest]
  · cases accepted

/-- While an accepted reading stays current, the sweeps insert exactly one row for its
vehicle if one of them finds it too old and the vehicle had no comms-loss row dated at the
reading or after it. Otherwise they insert none. -/
theorem commsLoss_perReading (db : Db) (reading : TelemetryEvent) (during : List Call)
    (accepted : (serve db (.postTelemetry reading)).1 = .created)
    (current : Undisturbed reading.vehicleId (serve db (.postTelemetry reading)).2 during) :
    ((∃ call ∈ during, Due reading.recordedAt.instant call) →
      ¬FlaggedSince reading.vehicleId db reading.recordedAt.instant →
      sweptRows reading.vehicleId (serve db (.postTelemetry reading)).2 during = 1) ∧
    ((¬∃ call ∈ during, Due reading.recordedAt.instant call) ∨
      FlaggedSince reading.vehicleId db reading.recordedAt.instant →
      sweptRows reading.vehicleId (serve db (.postTelemetry reading)).2 during = 0) := by
  obtain ⟨found, rows⟩ := accepted_state accepted
  have counts := sweptRows_eq during _ found current
  simp only [FlaggedSince, rows] at counts
  exact counts

/-- One reading, found too old by the second of two sweeps and then not flagged again. -/
theorem commsLoss_perReading_quiet :
    sweptRows "agv-1" (serve .seeded (.postTelemetry (statusReading "agv-1" .moving 0
      (by decide)))).2 [.sweep 4000000, .sweep 6000000, .sweep 9000000] = 1 := by
  refine (commsLoss_perReading .seeded (statusReading "agv-1" .moving 0 (by decide))
    [.sweep 4000000, .sweep 6000000, .sweep 9000000] (by decide +kernel) ?_).1 ?_ ?_
  · simp [Undisturbed]
  · exact ⟨.sweep 6000000, by simp, 6000000, rfl, by decide⟩
  · decide

def sweepTimes (calls : List Call) : List Int :=
  calls.filterMap fun
    | .sweep now => some now
    | _ => none

def readingTimes (vehicleId : String) (calls : List Call) : List Int :=
  calls.filterMap fun
    | .postTelemetry event =>
      if event.vehicleId = vehicleId then some event.recordedAt.instant else none
    | _ => none

/-- The sweeps' clock does not go back, and each vehicle's readings are in order. -/
structure Orderly (calls : List Call) : Prop where
  sweeps : (sweepTimes calls).Pairwise (· ≤ ·)
  readings : ∀ v, (readingTimes v calls).Pairwise (· < ·)

/-- The second reading was in flight while the sweep flagged the first, and is recorded before that
flag: its own silence is never flagged. -/
theorem commsLoss_lateReading :
    ¬∀ (earlier : List Call) (reading : TelemetryEvent) (during : List Call),
      Orderly (earlier ++ .postTelemetry reading :: during) →
      (serve (serveAll .seeded earlier) (.postTelemetry reading)).1 = .created →
      Undisturbed reading.vehicleId
        (serve (serveAll .seeded earlier) (.postTelemetry reading)).2 during →
      (∃ call ∈ during, Due reading.recordedAt.instant call) →
      sweptRows reading.vehicleId
        (serve (serveAll .seeded earlier) (.postTelemetry reading)).2 during = 1 := by
  intro all
  have once := all [.postTelemetry (statusReading "agv-1" .moving 0 (by decide)), .sweep 10000000]
    (statusReading "agv-1" .moving 7000000 (by decide)) [.sweep 20000000]
    { sweeps := by decide
      readings := by
        intro v
        simp only [readingTimes, statusReading, Datetime.instant, List.cons_append,
          List.nil_append, List.filterMap_cons]
        by_cases own : "agv-1" = v <;> simp [own] }
    (by decide +kernel) (by simp [Undisturbed])
    ⟨.sweep 20000000, by simp, 20000000, rfl, by decide⟩
  -- the flag of the first reading is the newer one, which hides the second
  have none : sweptRows "agv-1" (serve (serveAll .seeded
      [.postTelemetry (statusReading "agv-1" .moving 0 (by decide)), .sweep 10000000])
      (.postTelemetry (statusReading "agv-1" .moving 7000000 (by decide)))).2
      [.sweep 20000000] = 0 := by
    decide +kernel
  exact absurd (none.symm.trans once) (by decide)

end Episodes

section History

/-- The vehicle's last committed event. -/
def lastRaw (vehicleId : String) (db : Db) : Option RawEvent :=
  db.rawEvents.reverse.find? fun r => decide (r.vehicleId = vehicleId)

/-- Every vehicle's current row is dated as its last committed event. -/
def Mirrors (db : Db) : Prop :=
  ∀ v, (db.vehicleCurrentState.get? v).map CurrentState.recordedAt =
    (lastRaw v db).map RawEvent.recordedAt

theorem Mirrors.effect {call : Call} {before after : Db} (mirrors : Mirrors before)
    (effect : TelemetryEffect call before after) : Mirrors after := by
  cases effect with
  | @ingested event prior anomalies _ detected =>
    intro v
    simp only [FleetTelemetry.ingest, OrdMap.get?_set, lastRaw, List.reverse_append,
      List.reverse_singleton, List.singleton_append, List.find?_cons]
    -- the last raw event of the vehicle is the one just added, or as before
    by_cases own : event.vehicleId = v
    · simp [own, TelemetryEvent.rawEvent, TelemetryEvent.currentState]
    · have apart : v ≠ event.vehicleId := fun equal => own equal.symm
      simp only [apart, if_false, TelemetryEvent.rawEvent, own, decide_false]
      exact mirrors v
  | swept => exact mirrors
  | status _ _ raw current anomalies =>
    intro v
    rw [current, lastRaw, raw]
    exact mirrors v

/-- A sweep inserts a row for a vehicle only if the vehicle's last committed event is older
than the timeout, and so is every other one if that event is the most recent. -/
theorem flagged_lastCommitted (db : Db) (noEvents : db.rawEvents = [])
    (noReadings : db.vehicleCurrentState = .empty) (calls : List Call) (now : Int) (v : String)
    (flagged : sweptRow v (serveAll db calls) (.sweep now) ≠ 0) :
    ∃ last, lastRaw v (serveAll db calls) = some last ∧
      last.recordedAt < now - commsLossTimeoutMicros ∧
      ((∀ r ∈ (serveAll db calls).rawEvents, r.vehicleId = v →
          r.recordedAt ≤ last.recordedAt) →
        ∀ r ∈ (serveAll db calls).rawEvents, r.vehicleId = v →
          r.recordedAt < now - commsLossTimeoutMicros) := by
  -- the row a sweep compares with is the last committed event
  have mirrors : Mirrors (serveAll db calls) := by
    refine serveAll_invariant (P := Mirrors) ?_ ?_ calls
    · intro v
      simp [lastRaw, noEvents, noReadings]
    · intro call before after effect mirrors
      exact mirrors.effect effect
  have silent : v ∈ silentVehicles (now - commsLossTimeoutMicros) (serveAll db calls) := by
    by_contra absent
    rw [sweptRow, serve_sweep, commsLossOf_flags, if_neg absent] at flagged
    simp at flagged
  obtain ⟨row, found, old, _⟩ := mem_silentVehicles.mp silent
  have dated := mirrors v
  rw [found, Option.map_some] at dated
  obtain ⟨last, committed, same⟩ := Option.map_eq_some_iff.mp dated.symm
  refine ⟨last, committed, by omega, ?_⟩
  intro latest r listed owner
  have bound := latest r listed owner
  omega

theorem flagged_lastCommitted_single :
    ∃ last, lastRaw "agv-1" (serveAll .seeded [.postTelemetry (statusReading "agv-1" .moving 0
        (by decide))]) = some last ∧ last.recordedAt < 4000000 := by
  have ⟨last, committed, old, _⟩ := flagged_lastCommitted .seeded rfl rfl
    [.postTelemetry (statusReading "agv-1" .moving 0 (by decide))] 9000000 "agv-1"
    (by decide +kernel)
  exact ⟨last, committed, old⟩

/-- A retried delivery overwrites the current row with an older reading, and the vehicle is flagged
one second after its latest one. -/
theorem flagged_lateDelivery :
    ¬∀ (calls : List Call) (now : Int) (v : String),
      sweptRow v (serveAll .seeded calls) (.sweep now) ≠ 0 →
      ∀ r ∈ (serveAll .seeded calls).rawEvents, r.vehicleId = v →
        r.recordedAt < now - commsLossTimeoutMicros := by
  intro all
  have old := all
    [.postTelemetry (statusReading "agv-1" .moving 9000000 (by decide)),
      .postTelemetry (statusReading "agv-1" .moving 0 (by decide))]
    10000000 "agv-1" (by decide +kernel) ⟨"agv-1", .moving, .finite 80, 9000000⟩
    (by decide +kernel) rfl
  exact absurd old (by decide)

end History

end FleetTelemetry.Ingest
