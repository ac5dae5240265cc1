import FleetTelemetry.Ingest.Aggregate

/-!
# Which readings are accepted

A validated event passes the schema, but its transaction can still be refused: the rules
subtract the stored reading's instant from the event's, the driver refuses texts it cannot
encode or that hold U+0000 and reads back the years of a `datetime` only, and a zone counter
has a largest value. `accepted_iff` is the exact condition.
-/

namespace FleetTelemetry.Ingest

open Foundations

/-- The event is answered 201 and committed. -/
def Accepted (db : Db) (event : TelemetryEvent) : Prop :=
  ∃ anomalies,
    detectAnomalies event (db.vehicleCurrentState.get? event.vehicleId) = .ok anomalies ∧
    serve db (.postTelemetry event) = (.created, ingest event anomalies db)

/-- What neither the driver, the rules nor the database refuse about an event. -/
structure Acceptable (db : Db) (event : TelemetryEvent) : Prop where
  vehicleId : hasNul event.vehicleId = false
  /-- An instant without an offset only passes for a vehicle without a stored reading. -/
  recordedAt : (db.vehicleCurrentState.get? event.vehicleId).isSome = true →
    ∃ utc, event.recordedAt = .aware utc
  /-- The stored reading can be read back. -/
  prior : ∀ row, db.vehicleCurrentState.get? event.vehicleId = some row →
    readable row.recordedAt = true
  zoneEntered : ∀ zone, event.zoneEntered = some zone → zone.storable = true ∧
    ∀ n, db.zoneCounts.get? zone.text = some n → n < maxInteger
  errorCodes : ∀ code ∈ event.errorCodes, code.storable = true

section Statements

theorem exec_ok_iff {q : Stmt} {db : Db} {r : q.Ret} {ws : List Write} :
    postgres.exec q db = .ok (r, ws) ↔ q.clean = true ∧ q.execute db = .ok (r, ws) := by
  constructor
  · exact Stmt.exec_ok
  · rintro ⟨clean, executed⟩
    exact (Stmt.exec_clean clean db).trans executed

/-- A statement that cannot fail is only refused for its texts. -/
theorem returns_total {A : Type} {q : Stmt} {next : q.Ret → Transaction A} {db : Db} {r : q.Ret}
    {ws : List Write} (executes : q.execute db = .ok (r, ws)) :
    postgres.Returns (.exec q next) db ↔
      q.clean = true ∧ postgres.Returns (next r) (postgres.writeAll ws db) := by
  simp only [Engine.returns_exec, exec_ok_iff, executes, Except.ok.injEq, Prod.mk.injEq]
  constructor
  · rintro ⟨_, _, ⟨clean, rfl, rfl⟩, later⟩
    exact ⟨clean, later⟩
  · rintro ⟨clean, later⟩
    exact ⟨r, ws, ⟨clean, rfl, rfl⟩, later⟩

theorem returns_insertAnomalies (event : TelemetryEvent) (anomalies : List Firing) (db : Db) :
    postgres.Returns (insertAnomalies event anomalies) db ↔
      ∀ firing ∈ anomalies, (Stmt.insertAnomaly (event.anomaly firing)).clean = true := by
  induction anomalies generalizing db with
  | nil =>
    have done := postgres.returns_ret () db
    exact ⟨fun _ => by simp, fun _ => done⟩
  | cons firing rest ih =>
    have first : insertAnomalies event (firing :: rest) =
        .exec (.insertAnomaly (event.anomaly firing)) fun _ => insertAnomalies event rest := rfl
    rw [first, returns_total rfl, ih, List.forall_mem_cons]

theorem returns_incrementZone (zone : PyStr) {next : Unit → Transaction Unit} (db : Db)
    (later : ∀ db', postgres.Returns (next ()) db' ↔ postgres.Returns (next ()) db) :
    postgres.Returns (.exec (.incrementZone zone) next) db ↔
      (zone.storable = true ∧ ∀ n, db.zoneCounts.get? zone.text = some n → n < maxInteger) ∧
        postgres.Returns (next ()) db := by
  cases found : db.zoneCounts.get? zone.text with
  | none =>
    have executes : (Stmt.incrementZone zone).execute db = .ok ((), []) := by
      simp [Stmt.execute, found]
    rw [returns_total executes]
    simp [Stmt.clean, Stmt.texts]
  | some n =>
    -- an `integer` column takes no further entry once it is at its maximum
    by_cases full : maxInteger < n + 1
    · constructor
      · intro returns
        obtain ⟨r, ws, answered, _⟩ := (postgres.returns_exec _ _ _).mp returns
        have executed := (exec_ok_iff.mp answered).2
        simp [Stmt.execute, found, full] at executed
      · rintro ⟨⟨_, room⟩, _⟩
        have below := room n rfl
        omega
    · have room : n < maxInteger := by omega
      have executes : (Stmt.incrementZone zone).execute db =
          .ok ((), [.putZone zone.text (n + 1)]) := by
        simp [Stmt.execute, found, full]
      rw [returns_total executes]
      simp [Stmt.clean, Stmt.texts, later, room]

end Statements

section Rules

variable {event : TelemetryEvent} {prior : Option CurrentState} {anomalies : List Firing}

/-- The error codes are the only caller's text in the anomalies of an event. -/
theorem strings_detected (detected : detectAnomalies event prior = .ok anomalies)
    (firing : Firing) (fired : firing ∈ anomalies) (detail : Detail)
    (carries : firing.2 = some detail) :
    detail.strings = [] ∨ detail.strings = [PyStr.join "," event.errorCodes] := by
  obtain ⟨stateful, rfl, compared⟩ := detectAnomalies_ok detected
  -- only the error-code rule writes texts of the event into its detail
  rcases List.mem_append.mp fired with alone | later
  · simp only [statelessAnomalies, List.mem_append, List.mem_ite_nil_right,
      List.mem_singleton] at alone
    obtain ((⟨_, rfl⟩ | ⟨_, rfl⟩) | ⟨_, rfl⟩) | ⟨_, rfl⟩ := alone
    · cases carries
    · cases carries
      exact .inr rfl
    · cases carries
      exact .inl rfl
    · cases carries
      exact .inl rfl
  · exact .inl ((compared firing later).2 detail carries)

theorem detected_clean (detected : detectAnomalies event prior = .ok anomalies)
    (clean : hasNul event.vehicleId = false) :
    (∀ firing ∈ anomalies, (Stmt.insertAnomaly (event.anomaly firing)).clean = true) ↔
    ∀ code ∈ event.errorCodes, code.storable = true := by
  have comma : hasNul "," = false := by decide
  constructor
  · intro all code listed
    have some_ : event.errorCodes ≠ [] := List.ne_nil_of_mem listed
    -- the codes are written out once, by their own rule
    have fires : (.errorCodes, some (.errorCodes event.errorCodes)) ∈ anomalies := by
      obtain ⟨stateful, rfl, _⟩ := detectAnomalies_ok detected
      simp [statelessAnomalies, some_]
    have joined : (PyStr.join "," event.errorCodes).storable = true := by
      simpa [Stmt.clean, Stmt.texts, TelemetryEvent.anomaly, Detail.strings, clean] using
        all _ fires
    exact (PyStr.storable_join comma _).mp joined code listed
  · intro codes firing fired
    cases carries : firing.2 with
    | none => simp [Stmt.clean, Stmt.texts, TelemetryEvent.anomaly, carries, clean]
    | some detail =>
      have joined := (PyStr.storable_join comma _).mpr codes
      rcases strings_detected detected firing fired detail carries with none | same
      · simp [Stmt.clean, Stmt.texts, TelemetryEvent.anomaly, carries, clean, none]
      · simp [Stmt.clean, Stmt.texts, TelemetryEvent.anomaly, carries, clean, same, joined]

/-- The rules only fail on a mix of the two kinds of instants. -/
theorem detectAnomalies_ok_iff (event : TelemetryEvent) (prior : Option CurrentState) :
    (∃ anomalies, detectAnomalies event prior = .ok anomalies) ↔
      (prior.isSome = true → ∃ utc, event.recordedAt = .aware utc) := by
  cases prior with
  | none => simp [detectAnomalies]
  | some prior => cases moment : event.recordedAt <;> simp [detectAnomalies, moment, Datetime.sub]

end Rules

theorem returns_writeReading (event : TelemetryEvent) (anomalies : List Firing) (db : Db)
    (clean : hasNul event.vehicleId = false) :
    postgres.Returns (writeReading event anomalies) db ↔
      (∀ zone, event.zoneEntered = some zone → zone.storable = true ∧
        ∀ n, db.zoneCounts.get? zone.text = some n → n < maxInteger) ∧
      ∀ firing ∈ anomalies, (Stmt.insertAnomaly (event.anomaly firing)).clean = true := by
  have text : (Stmt.insertRaw event.rawEvent).clean = true := Stmt.clean_of_alone rfl clean
  have text' : (Stmt.upsertCurrent event.vehicleId event.currentState).clean = true :=
    Stmt.clean_of_alone rfl clean
  rw [writeReading, returns_total rfl, returns_total rfl, text, text']
  -- the counter is written before the anomalies, so either may be the one that fails
  cases entered : event.zoneEntered with
  | none => simp [returns_insertAnomalies]
  | some zone =>
    dsimp only
    rw [returns_incrementZone zone _ (by simp [returns_insertAnomalies]), returns_insertAnomalies]
    simp [postgres, Write.apply]

theorem returns_persistTelemetry (db : Db) (event : TelemetryEvent) :
    postgres.Returns (persistTelemetry event) db ↔ Acceptable db event := by
  have selects : (Stmt.selectPrior event.vehicleId).clean = !hasNul event.vehicleId :=
    Stmt.clean_alone rfl
  rw [persistTelemetry_eq]
  constructor
  -- read off in the order in which the transaction could have raised
  · intro returns
    obtain ⟨_, _, answered, later⟩ := (postgres.returns_exec _ _ _).mp returns
    obtain ⟨sent, executed⟩ := exec_ok_iff.mp answered
    obtain ⟨rfl, rfl, years⟩ := Stmt.execute_selectPrior executed
    have clean : hasNul event.vehicleId = false := by simpa [selects] using sent
    cases detected : detectAnomalies event (db.vehicleCurrentState.get? event.vehicleId) with
    | error e =>
      simp only [detected] at later
      exact (postgres.not_returns_raise e _ later).elim
    | ok anomalies =>
      simp only [detected] at later
      obtain ⟨zone, texts⟩ := (returns_writeReading event anomalies _ clean).mp later
      exact ⟨clean, (detectAnomalies_ok_iff event _).mp ⟨anomalies, detected⟩, years, zone,
        (detected_clean detected clean).mp texts⟩
  · rintro ⟨clean, moment, years, zone, codes⟩
    rw [returns_total (Stmt.selectPrior_readable years)]
    refine ⟨by simp [selects, clean], ?_⟩
    obtain ⟨anomalies, detected⟩ := (detectAnomalies_ok_iff event _).mpr moment
    simp only [detected]
    exact (returns_writeReading event anomalies _ clean).mpr
      ⟨zone, (detected_clean detected clean).mpr codes⟩

/-- An event is answered 201 and committed exactly when it is acceptable. -/
theorem accepted_iff (db : Db) (event : TelemetryEvent) :
    Accepted db event ↔ Acceptable db event := by
  rw [← returns_persistTelemetry, Accepted, serve_postTelemetry]
  constructor
  · rintro ⟨anomalies, _, served⟩
    split at served
    next done => exact ⟨_, _, done⟩
    · cases served
  · rintro ⟨_, db', done⟩
    obtain ⟨anomalies, detected, rfl⟩ := persistTelemetry_run event done
    refine ⟨anomalies, detected, ?_⟩
    simp only [done]

def naiveReading : TelemetryEvent :=
  { statusReading "agv-1" .idle 0 agv1_length with recordedAt := .naive 1000000 }

/-- The first reading stores an instant with an offset, so the second cannot be compared. -/
theorem accepted_naiveAfterAware :
    ¬∀ (earlier : List TelemetryEvent) (event : TelemetryEvent),
      Accepted (serveAll .seeded (earlier.map .postTelemetry)) event := by
  intro all
  obtain ⟨anomalies, _, served⟩ :=
    all [statusReading "agv-1" .idle 0 (by decide)] naiveReading
  have refused : (serve (serveAll .seeded [.postTelemetry (statusReading "agv-1" .idle 0
      (by decide))]) (.postTelemetry naiveReading)).1 = .internalServerError := by
    decide +kernel
  rw [List.map_singleton] at served
  rw [served] at refused
  cases refused

end FleetTelemetry.Ingest
