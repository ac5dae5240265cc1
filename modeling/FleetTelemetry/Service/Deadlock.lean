import FleetTelemetry.Foundations.LockOrder
import FleetTelemetry.Service.Effects
import FleetTelemetry.Service.FaultHandling

/-!
# Deadlock freedom of the write operations

Every transaction takes its locks in one order of the lock classes: the current row before
the zone, and the vehicle before its missions and its maintenance record. The flip to fault
updates the vehicle's row last, but has held its lock since the first statement.
-/

namespace FleetTelemetry

open Foundations

/-- The place of a lock in the order. -/
def Key.rank : Key → Nat
  | current _ => 0
  | zone _ => 1
  | vehicle _ => 2
  | mission _ => 3
  | openMaintenance _ => 4

section Bodies

theorem ascending_unlocked {A : Type} {held : List Key} {t : Transaction A}
    (all : t.All fun q => ∀ db, q.locks db = []) : t.Ascending postgres Key.rank held := by
  induction all generalizing held with
  | ret a => exact .ret held a
  | raise e => exact .raise held e
  | exec here _ ih =>
    constructor
    · intro db k asked
      simp [postgres, here db] at asked
    · intro db r ws _
      exact ih r

theorem insertAnomalies_ascending (event : TelemetryEvent) (anomalies : List Firing)
    (held : List Key) : (insertAnomalies event anomalies).Ascending postgres Key.rank held :=
  ascending_unlocked (insertAnomalies_all event (fun _ _ => rfl) anomalies)

theorem persistTelemetry_ascending (event : TelemetryEvent) :
    (persistTelemetry event).Ascending postgres Key.rank [] := by
  rw [persistTelemetry_eq]
  refine .exec (fun db k asked => absurd asked (List.not_mem_nil)) fun db prior ws _ => ?_
  split
  · exact .raise _ _
  next anomalies detected =>
    refine .exec (fun db k asked => absurd asked (List.not_mem_nil)) fun db _ ws _ => ?_
    refine .exec ?_ fun db _ ws _ => ?_
    · intro db k asked
      right
      simp [postgres, Stmt.locks]
    split
    next zone entered =>
      refine .exec ?_ fun db _ ws _ => insertAnomalies_ascending event anomalies _
      -- the only key held is that of the current row
      intro db k asked
      right
      intro h held
      have current : h = .current event.vehicleId := by simpa [postgres, Stmt.locks] using held
      have counted : k = .zone zone.text := by
        simp only [postgres, Stmt.locks] at asked
        split at asked
        · simpa using asked
        · simp at asked
      simp [current, counted, Key.rank]
    · exact insertAnomalies_ascending event anomalies _

theorem flipToFault_ascending (vehicleId : String) (reason : Option PyStr) :
    (flipToFault vehicleId reason).Ascending postgres Key.rank [.vehicle vehicleId] := by
  refine .exec ?_ fun db missionId ws _ => .exec ?_ fun db' _ ws' _ => .exec ?_ fun _ _ _ _ =>
    .ret _ _
  -- missions come after the vehicle row
  · intro db k asked
    right
    obtain ⟨id, _, rfl⟩ := List.mem_map.mp asked
    simp [Key.rank]
  -- the maintenance record comes after both
  · intro db' k asked
    right
    have record : k = .openMaintenance vehicleId := by
      simp only [postgres, Stmt.locks] at asked
      split at asked
      · simpa using asked
      · simp at asked
    intro h held
    rcases List.mem_append.mp held with vehicle | mission
    · have row : h = .vehicle vehicleId := by simpa using vehicle
      simp [row, record, Key.rank]
    · obtain ⟨id, _, rfl⟩ := List.mem_map.mp mission
      simp [record, Key.rank]
  · -- the row has been locked since the first statement
    intro db' k asked
    left
    have row : k = .vehicle vehicleId := by
      simp only [postgres, Stmt.locks] at asked
      split at asked
      · simpa using asked
      · simp at asked
    simp [row]

theorem transitionToFault_ascending (vehicleId : String) (reason : Option PyStr) :
    (transitionToFault vehicleId reason).Ascending postgres Key.rank [] := by
  rw [transitionToFault_eq]
  refine .exec ?_ fun db row ws done => ?_
  -- the vehicle row is the first lock, with nothing held before it
  · intro db k asked
    right
    simp
  cases row with
  | none => exact .raise _ _
  | some status =>
    dsimp only
    split
    · exact .ret _ _
    · have found : db.vehicles.get? vehicleId = some status :=
        congrArg Prod.fst (Except.ok.inj (Stmt.exec_ok done).2)
      have locked : postgres.locks (.lockVehicle vehicleId) db = [.vehicle vehicleId] := by
        have present : vehicleId ∈ db.vehicles.keys := by simp [OrdMap.mem_keys_iff, found]
        simp [postgres, Stmt.locks, present]
      rw [locked]
      exact flipToFault_ascending vehicleId reason

theorem transaction_ascending (call : Call) :
    (transaction call).Ascending postgres Key.rank [] := by
  cases call with
  | postTelemetry event => exact (persistTelemetry_ascending event).bind fun _ ks => .ret ks _
  | postVehicleStatus vehicleId update =>
    refine Txn.Ascending.bind ?_ fun _ ks => .ret ks _
    unfold statusTransaction
    split
    · exact transitionToFault_ascending vehicleId update.reason
    · refine .exec (fun db k asked => .inr ?_) fun _ _ _ _ => .ret _ _
      simp
  | sweep now =>
    refine .exec (fun db k asked => .inr ?_) fun _ _ _ _ => .ret _ _
    simp

end Bodies

namespace Service

/-- In every reachable state no open transaction waits for itself through others, and if
any is open then one is not blocked. -/
theorem writes_deadlockFree (env : (Key → Prop) → Db → Db → Prop) (db : Db) (s : State)
    (reached : ReachableWith env db s) :
    (∀ t, ¬Relation.TransGen (s.WaitsFor postgres) t t) ∧
    ((∃ t, s.Open t) → ∃ t, s.Open t ∧ ¬s.Blocked postgres t) := by
  constructor
  · exact Foundations.Reachable.acyclic transaction_ascending reached
  · rintro ⟨t, running⟩
    exact Foundations.Reachable.exists_free transaction_ascending reached running

/-- A fault transition holds the vehicle's row, and a second one waits for it. -/
theorem writes_deadlockFree_race :
    ∃ s, ReachableWith assignsMission assignedDb s ∧ s.WaitsFor postgres 1 0 ∧
      (∀ t, ¬Relation.TransGen (s.WaitsFor postgres) t t) ∧
      ∃ t, s.Open t ∧ ¬s.Blocked postgres t := by
  have ⟨s, reached, held⟩ := exists_reachable assignsMission [0, 1] assignedDb
    [.begin 0 (.postVehicleStatus "agv-1" ⟨.fault, some "lidar"⟩),
      .begin 1 (.postVehicleStatus "agv-1" ⟨.fault, none⟩), .advance 0, .advance 0]
    (fun s => s.waitsFor postgres 1 0 && (s.sessions 0).isSome)
    (by decide +kernel)
  simp only [Bool.and_eq_true, State.waitsFor_iff] at held
  have ⟨acyclic, free⟩ := writes_deadlockFree assignsMission assignedDb s reached
  exact ⟨s, reached, held.1, acyclic, free ⟨0, held.2⟩⟩

end Service

end FleetTelemetry
