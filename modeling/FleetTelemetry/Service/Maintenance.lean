import FleetTelemetry.Service.FaultHandling

/-!
# Maintenance records

What an applied fault leaves in `maintenance_records`. No call of the service resolves a
record, and a vehicle may leave fault with its record still open; the insert of the next
fault then meets the unique index, and only the cancelled mission and the status show it.
-/

namespace FleetTelemetry

open Foundations

/-- The mission of the vehicle that became cancelled between the two states. -/
def CancelsMission (vehicleId : String) (before after : Db) (missionId : Option Nat) : Prop :=
  ∀ id, missionId = some id ↔ before.missions.get? id = some ⟨vehicleId, .active⟩ ∧
    after.missions.get? id = some ⟨vehicleId, .cancelled⟩

/-- Between the two states an open record was added for the vehicle, with the reason and
the mission cancelled in that step. -/
def RecordsFault (vehicleId : String) (reason : Option PyStr) (before after : Db) : Prop :=
  ∃ missionId added, CancelsMission vehicleId before after missionId ∧
    after.maintenanceRecords = before.maintenanceRecords ++ added ∧
    ⟨vehicleId, missionId, reason.map PyStr.text, false⟩ ∈ added

section Entering

variable (vehicleId : String) (reason : Option PyStr) {db : Db}

theorem enterFault_cancelsMission (unique : db.UniqueIndexes) :
    CancelsMission vehicleId db (enterFault vehicleId reason db)
      (db.activeMissions vehicleId).head? := by
  intro id
  rw [missions_enterFault, ← mem_activeMissions]
  -- the index allows one active mission, so the first is the only one
  have atMost := unique.activeMission vehicleId
  cases missions : db.activeMissions vehicleId with
  | nil => simp
  | cons first rest =>
    have alone : rest = [] := by
      rw [missions, List.length_cons] at atMost
      exact List.eq_nil_of_length_eq_zero (by omega)
    subst alone
    by_cases same : id = first
    · simp [same]
    · simp [same, Ne.symm same]

theorem maintenanceRecords_enterFault :
    (enterFault vehicleId reason db).maintenanceRecords =
      db.maintenanceRecords ++
        if db.openRecords vehicleId = [] then
          [⟨vehicleId, (db.activeMissions vehicleId).head?, reason.map PyStr.text, false⟩]
        else [] := by
  by_cases none : db.openRecords vehicleId = [] <;> simp [enterFault, none]

/-- An applied fault is recorded exactly if no earlier record of the vehicle is open. -/
theorem enterFault_records_iff (unique : db.UniqueIndexes) :
    RecordsFault vehicleId reason db (enterFault vehicleId reason db) ↔
      db.openRecords vehicleId = [] := by
  constructor
  · rintro ⟨missionId, added, _, appended, recorded⟩
    by_contra earlier
    rw [maintenanceRecords_enterFault, if_neg earlier, List.append_cancel_left_eq] at appended
    subst appended
    cases recorded
  · intro none
    refine ⟨_, _, enterFault_cancelsMission vehicleId reason unique,
      maintenanceRecords_enterFault vehicleId reason, ?_⟩
    rw [if_pos none]
    exact List.mem_singleton_self _

end Entering

namespace Service

/-- The unique indexes hold in every committed state. -/
theorem uniqueIndexes_before {db : Db} (unique : db.UniqueIndexes) {s : State}
    (reached : ReachableWith assignsMission db s) : ∀ e ∈ s.log, e.before.UniqueIndexes := by
  have held := Chain.holds_before Db.UniqueIndexes (Explained assignsMission)
    (Foundations.Reachable.chain reached)
    (ReachableWith.explained agree_assignsMission reached) unique ?_
  · exact held.2
  · intro e explained here
    cases e with
    | returned call answered reply before after => exact here.effect explained
    | raised call error state => exact here
    | outside before after =>
      obtain ⟨_, allowed⟩ := explained
      exact here.assigned allowed

/-- In every interleaving, a call that returns `True` for a fault leaves its own record
exactly if the vehicle had no open one. -/
theorem appliedFault_recorded_iff (db : Db) (unique : db.UniqueIndexes) (s : State)
    (reached : ReachableWith assignsMission db s) (vehicleId : String)
    (update : VehicleStatusUpdate) (answered : List (Sigma Stmt.Ret)) (before after : Db)
    (logged : .returned (.postVehicleStatus vehicleId update) answered (.applied true)
      before after ∈ s.log) (fault : update.status = .fault) :
    RecordsFault vehicleId update.reason before after ↔ before.openRecords vehicleId = [] := by
  have unique' : before.UniqueIndexes := uniqueIndexes_before unique reached _ logged
  have effect := ReachableWith.explained agree_assignsMission reached _ logged
  cases effect with
  | enteredFault _ present other => exact enterFault_records_iff vehicleId update.reason unique'
  | updated normal present => exact (normal fault).elim

def statusCall (p : String → VehicleStatusUpdate → Reply → Db → Db → Bool) : Event → Bool
  | .returned (.postVehicleStatus v update) _ reply before after => p v update reply before after
  | _ => false

/-- A committed status call of the log, found by a test on it. -/
theorem statusCall_logged {log : List Event}
    {p : String → VehicleStatusUpdate → Reply → Db → Db → Bool}
    (found : log.any (statusCall p) = true) :
    ∃ v update answered reply before after,
      .returned (.postVehicleStatus v update) answered reply before after ∈ log ∧
      p v update reply before after = true := by
  obtain ⟨e, logged, shown⟩ := List.any_eq_true.mp found
  cases e with
  | raised call error state => cases shown
  | outside before after => cases shown
  | returned call answered reply before after =>
    cases call with
    | postTelemetry event => cases shown
    | sweep now => cases shown
    | postVehicleStatus v update =>
      exact ⟨v, update, answered, reply, before, after, logged, shown⟩

/-- A vehicle that breaks down, is set moving again and breaks down once more. -/
def breakdowns : List (Move Call) :=
  [.begin 0 (.postVehicleStatus "agv-1" ⟨.fault, some "lidar"⟩),
    .advance 0, .advance 0, .advance 0, .advance 0, .advance 0,
    .begin 0 (.postVehicleStatus "agv-1" ⟨.moving, none⟩), .advance 0, .advance 0,
    .begin 0 (.postVehicleStatus "agv-1" ⟨.fault, some "brakes"⟩),
    .advance 0, .advance 0, .advance 0, .advance 0, .advance 0]

/-- The first fault is recorded, with the mission the vehicle was on. -/
theorem appliedFault_recorded_iff_first :
    ∃ s answered before after, ReachableWith assignsMission assignedDb s ∧
      .returned (.postVehicleStatus "agv-1" ⟨.fault, some "lidar"⟩) answered (.applied true)
        before after ∈ s.log ∧
      RecordsFault "agv-1" (some "lidar") before after := by
  have ⟨s, reached, held⟩ := exists_reachable assignsMission [0] assignedDb breakdowns
    (fun s => s.log.any <| statusCall fun v update reply before _ =>
      decide (v = "agv-1") && decide (update = ⟨.fault, some "lidar"⟩) &&
        decide (reply = .applied true) && decide (before.openRecords "agv-1" = []))
    (by decide +kernel)
  obtain ⟨v, update, answered, reply, before, after, logged, shown⟩ := statusCall_logged held
  simp only [Bool.and_eq_true, decide_eq_true_eq] at shown
  obtain ⟨⟨⟨rfl, rfl⟩, rfl⟩, none⟩ := shown
  have recorded := appliedFault_recorded_iff assignedDb assignedDb_unique s reached "agv-1" _
    answered before after logged rfl
  exact ⟨s, answered, before, after, reached, logged, recorded.mpr none⟩

/-- The second is applied too, and no record of it is left. -/
theorem secondFault_unrecorded :
    ∃ s answered before after, ReachableWith assignsMission assignedDb s ∧
      .returned (.postVehicleStatus "agv-1" ⟨.fault, some "brakes"⟩) answered (.applied true)
        before after ∈ s.log ∧
      ¬RecordsFault "agv-1" (some "brakes") before after := by
  have ⟨s, reached, held⟩ := exists_reachable assignsMission [0] assignedDb breakdowns
    (fun s => s.log.any <| statusCall fun v update reply before after =>
      decide (v = "agv-1") && decide (update = ⟨.fault, some "brakes"⟩) &&
        decide (reply = .applied true) &&
        decide (before.maintenanceRecords = after.maintenanceRecords))
    (by decide +kernel)
  obtain ⟨v, update, answered, reply, before, after, logged, shown⟩ := statusCall_logged held
  simp only [Bool.and_eq_true, decide_eq_true_eq] at shown
  obtain ⟨⟨⟨rfl, rfl⟩, rfl⟩, same⟩ := shown
  refine ⟨s, answered, before, after, reached, logged, ?_⟩
  -- no record was added, so none is the one of this fault
  rintro ⟨missionId, added, _, appended, recorded⟩
  rw [← same, List.self_eq_append_right] at appended
  subst appended
  cases recorded

end Service

end FleetTelemetry
