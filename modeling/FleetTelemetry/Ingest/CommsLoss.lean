import FleetTelemetry.Ingest.Aggregate

/-!
# The comms-loss sweep

What one sweep adds to the anomalies of each vehicle, and what leaves them alone. The
guard of the sweep is read off two things: the vehicle's current row, and its own
comms-loss rows so far.
-/

namespace FleetTelemetry.Ingest

open Foundations Service

def isCommsLoss (vehicleId : String) (a : Anomaly) : Bool :=
  decide (a.vehicleId = vehicleId) && decide (a.anomalyType = .commsLoss)

/-- The comms-loss rows of the vehicle, oldest insert first. -/
def commsLossOf (vehicleId : String) (db : Db) : List Anomaly :=
  db.anomalies.filter (isCommsLoss vehicleId)

/-- Some comms-loss row of the vehicle is dated at the instant or after it. -/
def FlaggedSince (vehicleId : String) (db : Db) (instant : Int) : Prop :=
  ∃ a ∈ commsLossOf vehicleId db, instant ≤ a.detectedAt

instance (vehicleId : String) (db : Db) (instant : Int) :
    Decidable (FlaggedSince vehicleId db instant) :=
  inferInstanceAs (Decidable (∃ a ∈ commsLossOf vehicleId db, instant ≤ a.detectedAt))

/-- The row a sweep inserts for a silent vehicle. -/
def flag (now : Int) (vehicleId : String) : Anomaly :=
  ⟨vehicleId, .commsLoss, some (.silence "no event for over 5s"), now⟩

/-- What a sweep at `now` inserts when its statement meets the state. -/
def flags (now : Int) (db : Db) : List Anomaly :=
  (silentVehicles (now - commsLossTimeoutMicros) db).map (flag now)

theorem mem_silentVehicles {cutoff : Int} {db : Db} {v : String} :
    v ∈ silentVehicles cutoff db ↔
      ∃ row, db.vehicleCurrentState.get? v = some row ∧ row.recordedAt < cutoff ∧
        ¬FlaggedSince v db row.recordedAt := by
  -- the guard of the statement looks for a flag at or after the instant
  have guard : ∀ (w : String) (instant : Int), (db.anomalies.any fun a =>
      decide (a.vehicleId = w) && decide (a.anomalyType = .commsLoss) &&
        decide (instant ≤ a.detectedAt)) = true ↔ FlaggedSince w db instant := by
    intro w instant
    simp [FlaggedSince, commsLossOf, isCommsLoss, and_assoc]
  simp only [silentVehicles, List.mem_map, List.mem_filter, Bool.and_eq_true,
    Bool.not_eq_true', decide_eq_true_eq]
  constructor
  · rintro ⟨⟨w, row⟩, ⟨listed, silent, unflagged⟩, rfl⟩
    refine ⟨row, OrdMap.lookup_of_mem db.vehicleCurrentState.nodup listed, silent, ?_⟩
    rw [← guard, unflagged]
    simp
  · rintro ⟨row, found, silent, unflagged⟩
    refine ⟨(v, row), ⟨OrdMap.mem_of_get? _ _ _ found, silent, ?_⟩, rfl⟩
    rw [← guard] at unflagged
    simpa using unflagged

theorem silentVehicles_nodup (cutoff : Int) (db : Db) : (silentVehicles cutoff db).Nodup :=
  db.vehicleCurrentState.nodup.sublist (List.filter_sublist.map Prod.fst)

theorem writeAll_appendAnomaly (rows : List Anomaly) (db : Db) :
    postgres.writeAll (rows.map .appendAnomaly) db =
      { db with anomalies := db.anomalies ++ rows } := by
  induction rows generalizing db with
  | nil => simp
  | cons row rows ih =>
    rw [List.map_cons, Engine.writeAll_cons, ih]
    simp [postgres, Write.apply]

theorem exec_insertCommsLoss (now : Int) (db : Db) :
    postgres.exec (.insertCommsLoss "no event for over 5s" now (now - commsLossTimeoutMicros)) db =
      .ok ((flags now db).length, (flags now db).map .appendAnomaly) := by
  have clean : (Stmt.insertCommsLoss "no event for over 5s" now
      (now - commsLossTimeoutMicros)).clean = true := Stmt.clean_of_alone rfl (by decide)
  simp only [postgres, Stmt.exec_clean clean, Stmt.execute, flags, List.length_map, List.map_map]
  rfl

theorem serve_sweep (db : Db) (now : Int) :
    serve db (.sweep now) =
      (.swept (flags now db).length, { db with anomalies := db.anomalies ++ flags now db }) := by
  simp only [serve, transaction, detectCommsLoss, Txn.stmt_bind, Txn.pure_eq, Engine.run,
    exec_insertCommsLoss, writeAll_appendAnomaly, respond]

/-- The one statement of a sweep met some state, and its writes are the flags of that. -/
theorem sweep_writes {now : Int} {db : Db} {answered ws} {reply : Reply}
    (replays : Replays postgres postgres.AnswersSomewhere db (transaction (.sweep now)) answered ws
      (.ret reply)) : ∃ seen, ws = (flags now seen).map .appendAnomaly := by
  obtain ⟨n, ws₁, _, ws₂, ⟨seen, answer⟩, later, _, rfl⟩ := Replays.exec_inv replays
  obtain ⟨_, _, rfl⟩ := Replays.ret_inv later
  rw [exec_insertCommsLoss] at answer
  cases answer
  exact ⟨seen, List.append_nil _⟩

/-- What a committed call did to the telemetry tables, in whatever state `seen` the
statement of a sweep was evaluated. -/
inductive TelemetryEffect : Call → Db → Db → Prop
  | ingested {event prior anomalies} (db : Db)
      (detected : detectAnomalies event prior = .ok anomalies) :
      TelemetryEffect (.postTelemetry event) db (ingest event anomalies db)
  | swept (now : Int) (db seen : Db) :
      TelemetryEffect (.sweep now) db { db with anomalies := db.anomalies ++ flags now seen }
  | status (vehicleId : String) (update : VehicleStatusUpdate) {db db' : Db}
      (raw : db'.rawEvents = db.rawEvents)
      (current : db'.vehicleCurrentState = db.vehicleCurrentState)
      (anomalies : db'.anomalies = db.anomalies) :
      TelemetryEffect (.postVehicleStatus vehicleId update) db db'

theorem telemetry_of_effect {answer} {call : Call} {answered : List (Sigma Stmt.Ret)}
    {reply : Reply} {before after : Db} (effect : Effect answer call answered reply before after)
    (swept : ∀ now, call = .sweep now →
      ∃ seen, after = { before with anomalies := before.anomalies ++ flags now seen }) :
    TelemetryEffect call before after := by
  cases effect with
  | ingested read detected => exact .ingested _ detected
  | alreadyInFault | enteredFault | unmatched | updated => exact .status _ _ rfl rfl rfl
  | @swept now answered n db rows =>
    obtain ⟨seen, appended⟩ := swept now rfl
    rw [appended]
    exact .swept now before seen

/-- A committed sweep appended the flags of some state. -/
theorem swept_logged {env : (Key → Prop) → Db → Db → Prop} {db : Db} {s : State}
    (reached : ReachableWith env db s) {now : Int} {answered : List (Sigma Stmt.Ret)}
    {reply : Reply} {before after : Db}
    (logged : .returned (.sweep now) answered reply before after ∈ s.log) :
    ∃ seen, after = { before with anomalies := before.anomalies ++ flags now seen } := by
  refine replays_invariants.returned (P := fun call _ _ before after => call = .sweep now →
    ∃ seen, after = { before with anomalies := before.anomalies ++ flags now seen })
    ?_ trivial reached logged rfl
  intro db o reply _ replays point call
  rw [call, point] at replays
  obtain ⟨seen, pending⟩ := sweep_writes replays
  exact ⟨seen, by rw [Engine.view, pending, writeAll_appendAnomaly]⟩

/-- A logged event had the effect of its call, or none. -/
def TelemetryExplained : Event → Prop
  | .returned call _ _ before after => TelemetryEffect call before after
  | .raised _ _ _ => True
  | .outside _ _ => False

theorem telemetry_logged {db : Db} {s : State} (reached : Reachable db s) :
    ∀ e ∈ s.log, TelemetryExplained e := by
  intro e logged
  have explained := ReachableWith.explained agree_closed reached e logged
  cases e with
  | returned call answered reply before after =>
    refine telemetry_of_effect explained ?_
    rintro now rfl
    exact swept_logged reached logged
  | raised => trivial
  | outside =>
    obtain ⟨_, impossible⟩ := explained
    exact impossible.elim

/-- The rule for properties of committed states that every effect preserves. -/
theorem telemetry_invariant {P : Db → Prop} {db : Db} {s : State} (reached : Reachable db s)
    (start : P db)
    (preserved : ∀ call before after, TelemetryEffect call before after → P before → P after) :
    P s.db := by
  apply Chain.invariant (fun _ => P) TelemetryExplained (Foundations.Reachable.chain reached)
    (telemetry_logged reached) start
  intro _ e explained holds
  cases e with
  | returned call _ _ before after => exact preserved call before after explained holds
  | raised => exact holds
  | outside => exact explained.elim

/-- A call on its own either changes nothing or has its effect. -/
theorem telemetry_served (db : Db) (call : Call) :
    (serve db call).2 = db ∨ TelemetryEffect call db (serve db call).2 := by
  cases call with
  | sweep now =>
    right
    rw [serve_sweep]
    exact .swept now db db
  | postTelemetry event =>
    rw [serve_postTelemetry]
    -- a transaction that raises is rolled back
    split
    next done =>
      obtain ⟨anomalies, detected, rfl⟩ := persistTelemetry_run event done
      exact .inr (.ingested db detected)
    · exact .inl rfl
  | postVehicleStatus vehicleId update =>
    unfold serve
    split
    next done =>
      obtain ⟨answered, effect⟩ := run_effect _ done
      exact .inr (telemetry_of_effect effect (by simp))
    · exact .inl rfl

section Frames

/-- Each silent vehicle gets one row, and no other vehicle gets any. -/
theorem commsLossOf_flags (v : String) (now : Int) (db seen : Db) :
    commsLossOf v { db with anomalies := db.anomalies ++ flags now seen } =
      commsLossOf v db ++
        if v ∈ silentVehicles (now - commsLossTimeoutMicros) seen then [flag now v] else [] := by
  -- a sweep lists each silent vehicle once, so it adds one flag of it at most
  have own : ∀ vs : List String, vs.Nodup → (vs.map (flag now)).filter (isCommsLoss v) =
      if v ∈ vs then [flag now v] else [] := by
    intro vs
    induction vs with
    | nil => simp
    | cons w vs ih =>
      intro nodup
      obtain ⟨fresh, rest⟩ := List.nodup_cons.mp nodup
      rw [List.map_cons, List.filter_cons, ih rest]
      by_cases same : w = v
      · subst same
        simp [isCommsLoss, flag, fresh]
      · have apart : v ≠ w := fun equal => same equal.symm
        simp [isCommsLoss, flag, same, apart]
  simp only [commsLossOf, List.filter_append, flags]
  rw [own _ (silentVehicles_nodup _ seen)]

theorem detected_notCommsLoss {event : TelemetryEvent} {prior : Option CurrentState}
    {anomalies : List Firing} (detected : detectAnomalies event prior = .ok anomalies)
    (firing : Firing) (fired : firing ∈ anomalies) : firing.1 ≠ .commsLoss := by
  obtain ⟨stateful, rfl, compared⟩ := detectAnomalies_ok detected
  rcases List.mem_append.mp fired with alone | later
  · simp only [statelessAnomalies, List.mem_append, List.mem_ite_nil_right,
      List.mem_singleton] at alone
    obtain ((⟨_, rfl⟩ | ⟨_, rfl⟩) | ⟨_, rfl⟩) | ⟨_, rfl⟩ := alone <;> simp
  · obtain ⟨type | type | type, _⟩ := compared firing later <;> simp [type]

/-- Only sweeps insert comms-loss rows. -/
theorem commsLossOf_effect (v : String) {call : Call} {before after : Db}
    (effect : TelemetryEffect call before after) (other : ∀ now, call ≠ .sweep now) :
    commsLossOf v after = commsLossOf v before := by
  cases effect with
  | @ingested event prior anomalies _ detected =>
    have none : (anomalies.map event.anomaly).filter (isCommsLoss v) = [] := by
      rw [List.filter_eq_nil_iff]
      intro a listed
      obtain ⟨firing, fired, rfl⟩ := List.mem_map.mp listed
      simp [isCommsLoss, TelemetryEvent.anomaly, detected_notCommsLoss detected firing fired]
    simp only [commsLossOf, FleetTelemetry.ingest, List.filter_append, none, List.append_nil]
  | swept now => exact (other now rfl).elim
  | status _ _ raw current anomalies => rw [commsLossOf, commsLossOf, anomalies]

/-- Only the vehicle's own events change its current row. -/
theorem current_effect (v : String) {call : Call} {before after : Db}
    (effect : TelemetryEffect call before after)
    (other : ∀ event, call = .postTelemetry event → event.vehicleId ≠ v) :
    after.vehicleCurrentState.get? v = before.vehicleCurrentState.get? v := by
  cases effect with
  | @ingested event _ _ _ detected => exact OrdMap.get?_set_of_ne _ _ _ _ (other event rfl).symm
  | swept => rfl
  | status _ _ raw current anomalies => rw [current]

end Frames

end FleetTelemetry.Ingest
