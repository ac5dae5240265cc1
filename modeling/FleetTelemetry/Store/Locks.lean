import FleetTelemetry.Foundations.Locking
import FleetTelemetry.Store.Persistence

/-!
# The locking discipline of the statements

The row lock of a vehicle guards more than its row: by convention its missions and
maintenance records are only written under it. With that convention every statement but
the read of the prior reading and the sweep is protected by the locks held when it runs,
so transactions of these statements take effect serially, as `Discipline.returned` says.
-/

namespace FleetTelemetry

open Foundations

theorem activeMissions_eq (db : Db) (v : String) :
    db.activeMissions v =
      db.missions.keys.filter fun id => decide (db.missions.get? id = some ⟨v, .active⟩) := by
  rw [OrdMap.keys, List.filter_map, Db.activeMissions]
  congr 1
  apply List.filter_congr
  rintro ⟨id, m⟩ listed
  have found : db.missions.get? id = some m := OrdMap.lookup_of_mem db.missions.nodup listed
  cases m
  simp [found, Mission.activeFor]

theorem mem_activeMissions (db : Db) (v : String) (id : Nat) :
    id ∈ db.activeMissions v ↔ db.missions.get? id = some ⟨v, .active⟩ := by
  rw [activeMissions_eq]
  constructor
  · intro member
    simpa using (List.mem_filter.mp member).2
  · intro found
    exact List.mem_filter.mpr ⟨by simp [OrdMap.mem_keys_iff, found], by simpa using found⟩

theorem activeMissions_cancel (db : Db) (id : Nat) (v v' : String) :
    (Write.apply db (.putMission id ⟨v', .cancelled⟩)).activeMissions v =
      (db.activeMissions v).filter fun m => decide (m ≠ id) := by
  have value : ∀ m, decide ((db.missions.set id ⟨v', .cancelled⟩).get? m = some ⟨v, .active⟩) =
      (decide (m ≠ id) && decide (db.missions.get? m = some ⟨v, .active⟩)) := by
    intro m
    by_cases same : m = id <;> simp [OrdMap.get?_set, same]
  simp only [activeMissions_eq, Write.apply, value, List.filter_filter]
  by_cases known : id ∈ db.missions.keys
  · rw [OrdMap.keys_set_of_mem _ _ _ known]
  · rw [OrdMap.keys_set_of_not_mem _ _ _ known]
    simp

theorem openRecords_append (db : Db) (row : MaintenanceRecord) (v : String) :
    (Write.apply db (.appendMaintenance row)).openRecords v =
      db.openRecords v ++ [row].filter (MaintenanceRecord.openFor v) := by
  simp [Db.openRecords, Write.apply, List.filter_append]

namespace Stmt

def lockPolicy : Policy Stmt Stmt.Ret Write Key where
  needs
    | cancelActiveMission v => [.vehicle v]
    | insertMaintenance v _ _ => [.vehicle v]
    | _ => []
  gains
    | lockVehicle v, some _ => [.vehicle v]
    | _, _ => []
  loose
    -- both read the current rows without a lock, and the sweep then only appends
    | selectPrior _, prior, ws =>
      ws = [] ∧ ∀ row, prior = some row → readable row.recordedAt = true
    | insertCommsLoss _ _ _, _, ws => ∀ w ∈ ws, ∃ row, w = .appendAnomaly row
    | _, _, _ => False

end Stmt

/-- The two states look the same to a holder of the keys: the rows it locked agree, and
the same zones and vehicles exist at all. -/
structure Agree (ks : List Key) (db db' : Db) : Prop where
  zoneRows : ∀ z, z ∈ db.zoneCounts.keys ↔ z ∈ db'.zoneCounts.keys
  vehicleRows : ∀ v, v ∈ db.vehicles.keys ↔ v ∈ db'.vehicles.keys
  zone : ∀ z, .zone z ∈ ks → db.zoneCounts.get? z = db'.zoneCounts.get? z
  vehicle : ∀ v, .vehicle v ∈ ks → db.vehicles.get? v = db'.vehicles.get? v
  missions : ∀ v, .vehicle v ∈ ks → db.activeMissions v = db'.activeMissions v
  records : ∀ v, .vehicle v ∈ ks → db.openRecords v = db'.openRecords v

namespace Agree

theorem refl (ks : List Key) (db : Db) : Agree ks db db :=
  ⟨fun _ => .rfl, fun _ => .rfl, fun _ _ => rfl, fun _ _ => rfl, fun _ _ => rfl, fun _ _ => rfl⟩

theorem trans {ks : List Key} {db db' db'' : Db} (left : Agree ks db db')
    (right : Agree ks db' db'') : Agree ks db db'' where
  zoneRows z := (left.zoneRows z).trans (right.zoneRows z)
  vehicleRows v := (left.vehicleRows v).trans (right.vehicleRows v)
  zone z held := (left.zone z held).trans (right.zone z held)
  vehicle v held := (left.vehicle v held).trans (right.vehicle v held)
  missions v held := (left.missions v held).trans (right.missions v held)
  records v held := (left.records v held).trans (right.records v held)

theorem hasVehicle {ks : List Key} {db db' : Db} (agree : Agree ks db db') (v : String) :
    db.vehicles.has v = db'.vehicles.has v := by
  simp [OrdMap.has, agree.vehicleRows v]

/-- The same write on both sides keeps the agreement; a mission is only ever cancelled. -/
theorem apply {ks : List Key} {db db' : Db} (agree : Agree ks db db') (w : Write)
    (cancels : ∀ id m, w = .putMission id m → m.status = .cancelled) :
    Agree ks (w.apply db) (w.apply db') := by
  obtain ⟨zoneRows, vehicleRows, zone, vehicle, missions, records⟩ := agree
  cases w with
  | appendRaw row => exact ⟨zoneRows, vehicleRows, zone, vehicle, missions, records⟩
  | putCurrent v row => exact ⟨zoneRows, vehicleRows, zone, vehicle, missions, records⟩
  | appendAnomaly row => exact ⟨zoneRows, vehicleRows, zone, vehicle, missions, records⟩
  | putZone z n =>
    refine ⟨fun z' => ?_, vehicleRows, fun z' held => ?_, vehicle, missions, records⟩
    · simp only [Write.apply, OrdMap.mem_keys_set, zoneRows z']
    · simp only [Write.apply, OrdMap.get?_set, zone z' held]
  | putVehicle v status =>
    refine ⟨zoneRows, fun v' => ?_, zone, fun v' held => ?_, missions, records⟩
    · simp only [Write.apply, OrdMap.mem_keys_set, vehicleRows v']
    · simp only [Write.apply, OrdMap.get?_set, vehicle v' held]
  | putMission id m =>
    refine ⟨zoneRows, vehicleRows, zone, vehicle, fun v held => ?_, records⟩
    -- a cancelled mission leaves the active ones of either side by its id alone
    obtain ⟨owner, status⟩ := m
    have cancelled : status = .cancelled := cancels id _ rfl
    subst cancelled
    rw [activeMissions_cancel, activeMissions_cancel, missions v held]
  | appendMaintenance row =>
    refine ⟨zoneRows, vehicleRows, zone, vehicle, missions, fun v held => ?_⟩
    rw [openRecords_append, openRecords_append, records v held]

theorem applyAll {ks : List Key} {db db' : Db} (agree : Agree ks db db') (ws : List Write)
    (cancels : ∀ id m, .putMission id m ∈ ws → m.status = .cancelled) :
    Agree ks (postgres.writeAll ws db) (postgres.writeAll ws db') := by
  induction ws generalizing db db' with
  | nil => exact agree
  | cons w ws ih =>
    refine ih (agree.apply w ?_) fun id m member => cancels id m (List.mem_cons_of_mem _ member)
    rintro id m rfl
    exact cancels id m List.mem_cons_self

end Agree

namespace Stmt

/-- A statement under the locks it needs answers the same on both states, or is loose. -/
theorem execute_agree {ks : List Key} {db db' : Db} (agree : Agree ks db db') {q : Stmt}
    {r : q.Ret} {ws : List Write} (done : q.execute db = .ok (r, ws))
    (needs : lockPolicy.needs q ⊆ ks) (locks : q.locks db ⊆ ks) :
    (q.execute db' = .ok (r, ws) ∧ q.locks db' ⊆ ks) ∨ lockPolicy.loose q r ws := by
  cases q with
  | selectPrior v => exact .inr (execute_selectPrior done).2
  | insertCommsLoss detail now cutoff =>
    cases done
    right
    intro w member
    obtain ⟨v, _, rfl⟩ := List.mem_map.mp member
    exact ⟨_, rfl⟩
  | insertRaw row => exact .inl ⟨done, locks⟩
  | upsertCurrent v row => exact .inl ⟨done, locks⟩
  | insertAnomaly row => exact .inl ⟨done, locks⟩
  | incrementZone z =>
    left
    -- a zone without a row takes no lock, and has no row on the other side either
    have rows : db.zoneCounts.has z.text = db'.zoneCounts.has z.text := by
      simp [OrdMap.has, agree.zoneRows z.text]
    have same : db.zoneCounts.get? z.text = db'.zoneCounts.get? z.text := by
      apply OrdMap.get?_eq_of_keys _ _ z.text (agree.zoneRows z.text)
      intro present
      exact agree.zone z.text (locks (by simp [Stmt.locks, present]))
    simp only [Stmt.execute, Stmt.locks, same, rows] at done locks ⊢
    exact ⟨done, locks⟩
  | lockVehicle v =>
    left
    have rows := agree.hasVehicle v
    have same : db.vehicles.get? v = db'.vehicles.get? v := by
      apply OrdMap.get?_eq_of_keys _ _ v (agree.vehicleRows v)
      intro present
      exact agree.vehicle v (locks (by simp [Stmt.locks, present]))
    simp only [Stmt.execute, Stmt.locks, same, rows] at done locks ⊢
    exact ⟨done, locks⟩
  | cancelActiveMission v =>
    left
    -- the missions are not locked themselves: the vehicle's row stands for them
    have held : Key.vehicle v ∈ ks := by simpa [lockPolicy] using needs
    have same := agree.missions v held
    simp only [Stmt.execute, Stmt.locks, same] at done locks ⊢
    exact ⟨done, locks⟩
  | insertMaintenance v missionId reason =>
    left
    have held : Key.vehicle v ∈ ks := by simpa [lockPolicy] using needs
    have same := agree.records v held
    simp only [Stmt.execute, Stmt.locks, same] at done locks ⊢
    exact ⟨done, locks⟩
  | setVehicleFault v =>
    left
    have rows := agree.hasVehicle v
    simp only [Stmt.execute, Stmt.locks, rows] at done locks ⊢
    exact ⟨done, locks⟩
  | setVehicleStatus v status =>
    left
    have rows := agree.hasVehicle v
    simp only [Stmt.execute, Stmt.locks, rows] at done locks ⊢
    exact ⟨done, locks⟩

/-- The writes of a statement by the tables they touch. -/
theorem execute_writes {q : Stmt} {db : Db} {r : q.Ret} {ws : List Write}
    (done : q.execute db = .ok (r, ws)) (w : Write) (member : w ∈ ws) :
    match w with
    | .appendRaw row => q = .insertRaw row
    | .putCurrent v row => q = .upsertCurrent v row
    | .putZone z n => ∃ zoneId, q = .incrementZone zoneId ∧ z = zoneId.text ∧
        ∃ m, db.zoneCounts.get? z = some m ∧ n = m + 1 ∧ n ≤ maxInteger
    | .appendAnomaly row => q = .insertAnomaly row ∨
        ∃ detail now cutoff, q = .insertCommsLoss detail now cutoff
    | .putVehicle v status => (q = .setVehicleFault v ∨ q = .setVehicleStatus v status) ∧
        v ∈ db.vehicles.keys
    | .putMission id m => ∃ v, q = .cancelActiveMission v ∧ m = ⟨v, .cancelled⟩ ∧
        id ∈ db.activeMissions v
    | .appendMaintenance row => ∃ v missionId reason, q = .insertMaintenance v missionId reason ∧
        row = ⟨v, missionId, reason.map PyStr.text, false⟩ := by
  -- a read writes nothing
  cases q with
  | selectPrior v =>
    rw [(execute_selectPrior done).2.1] at member
    cases member
  -- one flag for each silent vehicle
  | insertCommsLoss detail now cutoff =>
    cases done
    obtain ⟨v, _, rfl⟩ := List.mem_map.mp member
    exact .inr ⟨_, _, _, rfl⟩
  | insertRaw row =>
    cases done
    obtain rfl := List.mem_singleton.mp member
    rfl
  | upsertCurrent v row =>
    cases done
    obtain rfl := List.mem_singleton.mp member
    rfl
  | insertAnomaly row =>
    cases done
    obtain rfl := List.mem_singleton.mp member
    exact .inl rfl
  -- an unknown zone matches no row, and a full counter raises
  | incrementZone z =>
    simp only [Stmt.execute] at done
    split at done
    · cases done
      cases member
    next m found =>
      split at done
      · cases done
      next fits =>
        cases done
        obtain rfl := List.mem_singleton.mp member
        exact ⟨z, rfl, rfl, m, found, rfl, Int.not_lt.mp fits⟩
  | lockVehicle v =>
    cases done
    cases member
  -- every active mission of the vehicle is cancelled, not only the first
  | cancelActiveMission v =>
    cases done
    obtain ⟨id, listed, rfl⟩ := List.mem_map.mp member
    exact ⟨v, rfl, rfl, listed⟩
  -- nothing is added when the vehicle has an open record
  | insertMaintenance v missionId reason =>
    simp only [Stmt.execute, Except.ok.injEq, Prod.mk.injEq, true_and] at done
    subst done
    split at member
    · obtain rfl := List.mem_singleton.mp member
      exact ⟨_, _, _, rfl, rfl⟩
    · cases member
  -- an update writes the row that it matches, and an unknown vehicle has none
  | setVehicleFault v =>
    simp only [Stmt.execute, Except.ok.injEq, Prod.mk.injEq, true_and] at done
    subst done
    split at member
    next present =>
      obtain rfl := List.mem_singleton.mp member
      exact ⟨.inl rfl, by simpa using present⟩
    · cases member
  | setVehicleStatus v status =>
    simp only [Stmt.execute] at done
    split at done
    next present =>
      cases done
      obtain rfl := List.mem_singleton.mp member
      exact ⟨.inr rfl, by simpa using present⟩
    · cases done
      cases member

end Stmt

/-- The write leaves alone what a holder of the keys looks at. -/
def Write.Spares (ks : List Key) (db : Db) : Write → Prop
  | putZone z _ => z ∈ db.zoneCounts.keys ∧ .zone z ∉ ks
  | putVehicle v _ => v ∈ db.vehicles.keys ∧ .vehicle v ∉ ks
  | putMission id m => m.status = .cancelled ∧ ∀ v, .vehicle v ∈ ks → id ∉ db.activeMissions v
  | appendMaintenance row => .vehicle row.vehicleId ∉ ks
  | _ => True

namespace Agree

theorem spared {ks : List Key} {db db' : Db} (agree : Agree ks db db') {w : Write}
    (spares : w.Spares ks db) : Agree ks db (w.apply db') := by
  obtain ⟨zoneRows, vehicleRows, zone, vehicle, missions, records⟩ := agree
  cases w with
  | appendRaw row => exact ⟨zoneRows, vehicleRows, zone, vehicle, missions, records⟩
  | putCurrent v row => exact ⟨zoneRows, vehicleRows, zone, vehicle, missions, records⟩
  | appendAnomaly row => exact ⟨zoneRows, vehicleRows, zone, vehicle, missions, records⟩
  -- a new value in a row that is there, of a zone whose lock is not held
  | putZone z n =>
    obtain ⟨present, free⟩ := spares
    have keys : (Write.apply db' (.putZone z n)).zoneCounts.keys = db'.zoneCounts.keys :=
      OrdMap.keys_set_of_mem _ _ _ ((zoneRows z).mp present)
    refine ⟨fun z' => ?_, vehicleRows, fun z' held => ?_, vehicle, missions, records⟩
    · rw [keys]
      exact zoneRows z'
    · have apart : z' ≠ z := by
        rintro rfl
        exact free held
      rw [Write.apply, OrdMap.get?_set_of_ne _ _ _ _ apart, zone z' held]
  | putVehicle v status =>
    obtain ⟨present, free⟩ := spares
    have keys : (Write.apply db' (.putVehicle v status)).vehicles.keys = db'.vehicles.keys :=
      OrdMap.keys_set_of_mem _ _ _ ((vehicleRows v).mp present)
    refine ⟨zoneRows, fun v' => ?_, zone, fun v' held => ?_, missions, records⟩
    · rw [keys]
      exact vehicleRows v'
    · have apart : v' ≠ v := by
        rintro rfl
        exact free held
      rw [Write.apply, OrdMap.get?_set_of_ne _ _ _ _ apart, vehicle v' held]
  | putMission id m =>
    obtain ⟨owner, status⟩ := m
    obtain ⟨cancelled, others⟩ := spares
    subst cancelled
    refine ⟨zoneRows, vehicleRows, zone, vehicle, fun v held => ?_, records⟩
    have absent := others v held
    rw [missions v held] at absent ⊢
    rw [activeMissions_cancel]
    -- cancelling only takes this mission out, which was none of the vehicle's active ones
    symm
    apply List.filter_eq_self.mpr
    intro m member
    have apart : m ≠ id := by
      rintro rfl
      exact absent member
    simpa using apart
  | appendMaintenance row =>
    refine ⟨zoneRows, vehicleRows, zone, vehicle, missions, fun v held => ?_⟩
    have apart : row.vehicleId ≠ v := by
      rintro rfl
      exact spares held
    rw [openRecords_append, records v held]
    simp [MaintenanceRecord.openFor, apart]

theorem sparedAll {ks : List Key} {db : Db} {ws : List Write}
    (spares : ∀ w ∈ ws, w.Spares ks db) : Agree ks db (postgres.writeAll ws db) := by
  -- each write spares the first state, however far the second one has moved on
  have general : ∀ (ws : List Write) (db' : Db), (∀ w ∈ ws, w.Spares ks db) → Agree ks db db' →
      Agree ks db (postgres.writeAll ws db') := by
    intro ws
    induction ws with
    | nil => exact fun _ _ agree => agree
    | cons w ws ih =>
      intro db' all agree
      apply ih (w.apply db') fun w' member => all w' (List.mem_cons_of_mem _ member)
      exact agree.spared (all w List.mem_cons_self)
  exact general ws db spares (refl ks db)

end Agree

namespace Stmt

/-- The writes of a statement stay within the keys it runs under. -/
theorem spares_of_covered {ks ks' : List Key} {q : Stmt} {db : Db} {r : q.Ret} {ws : List Write}
    (covered : lockPolicy.Covered postgres ks' db q r ws) (apart : List.Disjoint ks ks') :
    ∀ w ∈ ws, w.Spares ks db := by
  intro w member
  rcases covered with ⟨done, needs, locks⟩ | loose
  · have executed := (exec_ok done).2
    have shape := execute_writes executed w member
    cases w with
    | appendRaw | putCurrent | appendAnomaly => trivial
    | putZone z n =>
      obtain ⟨zoneId, rfl, rfl, m, found, _⟩ := shape
      have present : zoneId.text ∈ db.zoneCounts.keys := by simp [OrdMap.mem_keys_iff, found]
      have taken : Key.zone zoneId.text ∈ ks' :=
        locks (by simp [postgres, Stmt.locks, present])
      exact ⟨present, fun held => apart held taken⟩
    | putVehicle v status =>
      obtain ⟨origin, present⟩ := shape
      have taken : Key.vehicle v ∈ ks' := by
        rcases origin with rfl | rfl <;> exact locks (by simp [postgres, Stmt.locks, present])
      exact ⟨present, fun held => apart held taken⟩
    | putMission id m =>
      obtain ⟨v, rfl, rfl, listed⟩ := shape
      have taken : Key.vehicle v ∈ ks' := needs (by simp [lockPolicy])
      refine ⟨rfl, fun v' held other => ?_⟩
      -- the cancelled mission is active for one vehicle only, whose row this statement holds
      rw [mem_activeMissions] at listed other
      rw [listed] at other
      cases other
      exact apart held taken
    | appendMaintenance row =>
      obtain ⟨v, missionId, reason, rfl, rfl⟩ := shape
      have taken : Key.vehicle v ∈ ks' := needs (by simp [lockPolicy])
      exact fun held => apart held taken
  · cases q with
    | selectPrior v =>
      rw [loose.1] at member
      cases member
    | insertCommsLoss detail now cutoff =>
      obtain ⟨row, rfl⟩ := loose w member
      trivial
    | _ => exact loose.elim

theorem cancels_of_covered {ks : List Key} {q : Stmt} {db : Db} {r : q.Ret} {ws : List Write}
    (covered : lockPolicy.Covered postgres ks db q r ws) (id : Nat) (m : Mission)
    (member : .putMission id m ∈ ws) : m.status = .cancelled :=
  (spares_of_covered covered (List.disjoint_nil_left ks) _ member).1

end Stmt

/-- The statements obey the discipline, whatever else changes the database as long as it
respects the locks. -/
theorem discipline {env : (Key → Prop) → Db → Db → Prop}
    (outside : ∀ {ks held db db'}, env held db db' → (∀ k ∈ ks, held k) → Agree ks db db') :
    Discipline postgres env Stmt.lockPolicy Agree where
  agree_refl := Agree.refl
  agree_trans := Agree.trans
  gained {q db r ws} done := by
    have executed := (Stmt.exec_ok done).2
    -- only `SELECT ... FOR UPDATE` promises a lock to the statements after it
    cases q with
    | lockVehicle v =>
      cases executed
      cases found : db.vehicles.get? v with
      | none => simp [Stmt.lockPolicy]
      | some status =>
        have present : v ∈ db.vehicles.keys := by simp [OrdMap.mem_keys_iff, found]
        simp [Stmt.lockPolicy, postgres, Stmt.locks, present]
    | _ => simp [Stmt.lockPolicy]
  kept {ks db db' q r ws} agree covered := by
    -- the answer is the same on both states, or it is one that may be out of date
    refine ⟨?_, agree.applyAll ws (Stmt.cancels_of_covered covered)⟩
    rcases covered with ⟨done, needs, locks⟩ | loose
    · obtain ⟨clean, executed⟩ := Stmt.exec_ok done
      rcases Stmt.execute_agree agree executed needs locks with ⟨same, locks'⟩ | loose
      · left
        exact ⟨(Stmt.exec_clean clean _).trans same, needs, locks'⟩
      · exact .inr loose
    · exact .inr loose
  apart covered free := Agree.sparedAll (Stmt.spares_of_covered covered free)
  outside := outside

end FleetTelemetry
