import FleetTelemetry.Service.Effects

/-!
# Registration of vehicles

A status request locks the vehicle's row of `vehicles`, while telemetry upserts its row of
`vehicle_current_state`. No operation of the service inserts into `vehicles`, so in a
database the service alone has written to, the row a fault transition needs is missing
for every vehicle, however much telemetry it has sent.
-/

namespace FleetTelemetry

open Foundations

theorem vehicleKeys_effect {answer} {call : Call} {answered : List (Sigma Stmt.Ret)}
    {reply : Reply} {before after : Db}
    (effect : Effect answer call answered reply before after) :
    after.vehicles.keys = before.vehicles.keys := by
  cases effect with
  | ingested | alreadyInFault | unmatched | swept => rfl
  | enteredFault fault present other => exact OrdMap.keys_set_of_mem _ _ _ present
  | updated normal present => exact OrdMap.keys_set_of_mem _ _ _ present

theorem serve_vehicleKeys (db : Db) (call : Call) :
    (serve db call).2.vehicles.keys = db.vehicles.keys := by
  unfold serve
  split
  next reply db' done =>
    obtain ⟨_, effect⟩ := run_effect call done
    exact vehicleKeys_effect effect
  · rfl

theorem serveAll_vehicleKeys (db : Db) (calls : List Call) :
    (serveAll db calls).vehicles.keys = db.vehicles.keys := by
  induction calls generalizing db with
  | nil => rfl
  | cons call calls ih =>
    have rest := ih (serve db call).2
    rw [serve_vehicleKeys] at rest
    exact rest

/-- An accepted event has an id that the statements of a status request can send. -/
theorem accepted_clean (db : Db) (event : TelemetryEvent)
    (accepted : (serve db (.postTelemetry event)).1 = .created) :
    hasNul event.vehicleId = false := by
  unfold serve at accepted
  split at accepted
  next reply db' done =>
    obtain ⟨_, effect⟩ := run_effect _ done
    cases effect with
    | ingested read detected =>
      have clean := (Stmt.exec_ok read).1
      rw [Stmt.clean_alone rfl] at clean
      simpa using clean
  · simp [respond] at accepted

/-- A fault request for a vehicle without a row is answered 404 and changes nothing. -/
theorem serve_fault_unknown (db : Db) (vehicleId : String) (reason : Option PyStr)
    (clean : hasNul vehicleId = false) (unknown : vehicleId ∉ db.vehicles.keys) :
    serve db (.postVehicleStatus vehicleId ⟨.fault, reason⟩) =
      (.notFound ("unknown vehicle: " ++ vehicleId), db) := by
  have missing := (OrdMap.get?_eq_none_iff _ _).mpr unknown
  have raised : postgres.run (transaction (.postVehicleStatus vehicleId ⟨.fault, reason⟩)) db =
      .error (.lookupError ("unknown vehicle: " ++ vehicleId)) := by
    have locked : postgres.exec (.lockVehicle vehicleId) db = .ok (none, []) := by
      refine (Stmt.exec_clean (Stmt.clean_of_alone rfl clean) db).trans ?_
      rw [Stmt.execute, missing]
    simp only [transaction, statusTransaction, transitionToFault_eq, if_true, Txn.exec_bind,
      Engine.run, locked, Txn.raise_bind]
  simp only [serve, raised, respond, postVehicleStatus]

/-- From the seeded database, every fault request that follows an accepted event of its
vehicle is answered 404. -/
theorem fault_after_telemetry_notFound (earlier later : List Call) (event : TelemetryEvent)
    (reason : Option PyStr)
    (accepted : (serve (serveAll .seeded earlier) (.postTelemetry event)).1 = .created) :
    let db := serveAll (serve (serveAll .seeded earlier) (.postTelemetry event)).2 later
    serve db (.postVehicleStatus event.vehicleId ⟨.fault, reason⟩) =
      (.notFound ("unknown vehicle: " ++ event.vehicleId), db) := by
  intro db
  apply serve_fault_unknown db _ _ (accepted_clean _ _ accepted)
  -- no call has a statement that inserts into `vehicles`, and the seed has none either
  have keys : db.vehicles.keys = [] := by
    rw [serveAll_vehicleKeys, serve_vehicleKeys, serveAll_vehicleKeys]
    rfl
  simp [keys]

/-- The first tick of a simulated vehicle whose fault is injected. -/
def faultTick : TelemetryEvent :=
  { vehicleId := "agv-1"
    status := .moving
    batteryPct := .finite 87
    recordedAt := .aware 0
    zoneEntered := some "aisle_a"
    speedMps := some (.finite (3 / 2))
    vehicleId_length := agv1_length
    batteryPct_range := by decide +kernel
    speedMps_range := by decide +kernel }

theorem fault_after_telemetry_notFound_tick :
    let db := serveAll (serve (serveAll .seeded []) (.postTelemetry faultTick)).2 []
    serve db (.postVehicleStatus "agv-1" ⟨.fault, some "k6 injected fault"⟩) =
      (.notFound "unknown vehicle: agv-1", db) :=
  fault_after_telemetry_notFound [] [] faultTick _ (by decide +kernel)

theorem fault_tick_answered_notFound :
    (serve .seeded (.postTelemetry faultTick)).1 = .created ∧
    (serve (serve .seeded (.postTelemetry faultTick)).2
      (.postVehicleStatus "agv-1" ⟨.fault, some "k6 injected fault"⟩)).1 =
        .notFound "unknown vehicle: agv-1" := by
  decide +kernel

end FleetTelemetry
