import FleetTelemetry.Service.Effects

/-!
# Fault handling

Status requests under concurrency, with missions assigned from outside. Because each
transition runs under the vehicle's row lock it takes effect serially, so an applied
transition is exactly a change of the committed status, and the maintenance record and
the cancelled mission come and go with the status.
-/

namespace FleetTelemetry

open Foundations

namespace Service

/-- Outside the service, a mission is inserted for a vehicle that no call holds and that
is not in fault, within the unique index on active missions. -/
def assignsMission (held : Key → Prop) (db db' : Db) : Prop :=
  ∃ id m, db.missions.get? id = none ∧ ¬held (.vehicle m.vehicleId) ∧
    db.vehicles.get? m.vehicleId ≠ some .fault ∧
    db' = { db with missions := db.missions.set id m } ∧
    ∀ v, (db'.activeMissions v).length ≤ 1

end Service

section Missions

theorem activeMissions_insert (db : Db) (id : Nat) (m : Mission)
    (fresh : db.missions.get? id = none) (v : String) :
    Db.activeMissions { db with missions := db.missions.set id m } v =
      db.activeMissions v ++ if m.activeFor v then [id] else [] := by
  have absent := (OrdMap.get?_eq_none_iff _ _).mp fresh
  simp only [Db.activeMissions, OrdMap.entries_set, if_neg absent, List.filter_append,
    List.map_append]
  by_cases active : m.activeFor v = true <;> simp [active]

theorem activeMissions_cancelAll (ids : List Nat) (db : Db) (v v' : String) :
    Db.activeMissions { db with
        missions := ids.foldl (fun missions id => missions.set id ⟨v', .cancelled⟩) db.missions }
      v = (db.activeMissions v).filter fun m => decide (m ∉ ids) := by
  induction ids generalizing db with
  | nil => simp
  | cons id ids ih =>
    have step := activeMissions_cancel db id v v'
    rw [List.foldl_cons]
    refine Eq.trans (ih { db with missions := db.missions.set id ⟨v', .cancelled⟩ }) ?_
    simp only [Write.apply] at step
    rw [step, List.filter_filter]
    apply List.filter_congr
    intro m _
    simp [Bool.and_comm]

theorem agree_assignsMission {ks : List Key} {held : Key → Prop} {db db' : Db}
    (allowed : Service.assignsMission held db db') (locked : ∀ k ∈ ks, held k) :
    Agree ks db db' := by
  obtain ⟨id, m, fresh, free, _, rfl, _⟩ := allowed
  refine ⟨fun _ => .rfl, fun _ => .rfl, fun _ _ => rfl, fun _ _ => rfl, fun v member => ?_,
    fun _ _ => rfl⟩
  -- the vehicle of the new mission is one whose row nobody holds
  have apart : m.vehicleId ≠ v := by
    rintro rfl
    exact free (locked _ member)
  rw [activeMissions_insert db id m fresh]
  simp [Mission.activeFor, apart]

end Missions

section Transition

variable (vehicleId : String) (reason : Option PyStr) (db : Db)

theorem activeMissions_enterFault_self :
    (enterFault vehicleId reason db).activeMissions vehicleId = [] := by
  have cancelled := activeMissions_cancelAll (db.activeMissions vehicleId) db vehicleId vehicleId
  refine Eq.trans cancelled ?_
  apply List.filter_eq_nil_iff.mpr
  intro m member
  simpa using member

theorem activeMissions_enterFault_other (v : String) (apart : v ≠ vehicleId) :
    (enterFault vehicleId reason db).activeMissions v = db.activeMissions v := by
  have cancelled := activeMissions_cancelAll (db.activeMissions vehicleId) db v vehicleId
  refine Eq.trans cancelled ?_
  apply List.filter_eq_self.mpr
  intro m member
  have kept : m ∉ db.activeMissions vehicleId := by
    intro listed
    rw [mem_activeMissions] at member listed
    rw [member] at listed
    cases listed
    exact apart rfl
  simpa using kept

theorem missions_enterFault (id : Nat) :
    (enterFault vehicleId reason db).missions.get? id =
      if id ∈ db.activeMissions vehicleId then some ⟨vehicleId, .cancelled⟩
      else db.missions.get? id :=
  OrdMap.get?_foldl_set _ _ _ _

theorem openRecords_enterFault (v : String) :
    (enterFault vehicleId reason db).openRecords v =
      if v = vehicleId ∧ db.openRecords vehicleId = [] then
        [⟨vehicleId, (db.activeMissions vehicleId).head?, reason.map PyStr.text, false⟩]
      else db.openRecords v := by
  -- a record is opened only if the vehicle has none
  by_cases none : db.openRecords vehicleId = []
  · have opened : (enterFault vehicleId reason db).maintenanceRecords = db.maintenanceRecords ++
        [⟨vehicleId, (db.activeMissions vehicleId).head?, reason.map PyStr.text, false⟩] := by
      simp [enterFault, none]
    rw [Db.openRecords, opened, List.filter_append]
    by_cases same : v = vehicleId
    · subst same
      have empty : db.maintenanceRecords.filter (MaintenanceRecord.openFor v) = [] := none
      rw [if_pos ⟨rfl, none⟩, empty]
      simp [MaintenanceRecord.openFor]
    · have apart : vehicleId ≠ v := fun equal => same equal.symm
      simp [same, apart, MaintenanceRecord.openFor, Db.openRecords]
  · have kept : (enterFault vehicleId reason db).maintenanceRecords = db.maintenanceRecords := by
      simp [enterFault, none]
    rw [Db.openRecords, kept, if_neg fun both => none both.2]
    rfl

end Transition

namespace Db.UniqueIndexes

theorem enterFault {db : Db} (unique : db.UniqueIndexes) (vehicleId : String)
    (reason : Option PyStr) : (enterFault vehicleId reason db).UniqueIndexes where
  activeMission v := by
    by_cases same : v = vehicleId
    · subst same
      simp [activeMissions_enterFault_self]
    · rw [activeMissions_enterFault_other _ _ _ _ same]
      exact unique.activeMission v
  openMaintenance v := by
    rw [openRecords_enterFault]
    split
    · simp
    · exact unique.openMaintenance v

theorem effect {answer} {call : Call} {answered : List (Sigma Stmt.Ret)} {reply : Reply}
    {before after : Db} (effect : Effect answer call answered reply before after)
    (unique : before.UniqueIndexes) : after.UniqueIndexes := by
  cases effect with
  | ingested | updated | swept => exact ⟨unique.activeMission, unique.openMaintenance⟩
  | alreadyInFault | unmatched => exact unique
  | enteredFault fault present other => exact unique.enterFault _ _

theorem assigned {held : Key → Prop} {db db' : Db} (allowed : Service.assignsMission held db db')
    (unique : db.UniqueIndexes) : db'.UniqueIndexes := by
  obtain ⟨id, m, _, _, _, rfl, within⟩ := allowed
  exact ⟨within, unique.openMaintenance⟩

end Db.UniqueIndexes

/-- What holds between the three tables in every committed state. -/
structure FaultInvariant (db : Db) : Prop where
  oneMission : ∀ v, (db.activeMissions v).length ≤ 1
  oneRecord : ∀ v, (db.openRecords v).length ≤ 1
  recorded : ∀ v, db.vehicles.get? v = some .fault → db.openRecords v ≠ []
  halted : ∀ v, db.vehicles.get? v = some .fault → db.activeMissions v = []

namespace FaultInvariant

theorem unique {db : Db} (inv : FaultInvariant db) : db.UniqueIndexes :=
  ⟨inv.oneMission, inv.oneRecord⟩

theorem enterFault {db : Db} (inv : FaultInvariant db) (vehicleId : String)
    (reason : Option PyStr) : FaultInvariant (enterFault vehicleId reason db) where
  oneMission := (inv.unique.enterFault vehicleId reason).activeMission
  oneRecord := (inv.unique.enterFault vehicleId reason).openMaintenance
  recorded v fault := by
    rw [openRecords_enterFault]
    split
    · simp
    -- a vehicle that had a record keeps it, and so does every other one
    next other =>
      by_cases same : v = vehicleId
      · subst same
        exact fun none => other ⟨rfl, none⟩
      · rw [FleetTelemetry.enterFault, OrdMap.get?_set_of_ne _ _ _ _ same] at fault
        exact inv.recorded v fault
  halted v fault := by
    by_cases same : v = vehicleId
    · subst same
      exact activeMissions_enterFault_self _ _ _
    · rw [activeMissions_enterFault_other _ _ _ _ same]
      rw [FleetTelemetry.enterFault, OrdMap.get?_set_of_ne _ _ _ _ same] at fault
      exact inv.halted v fault

/-- Leaving fault, or moving between other statuses, leaves nothing to show. -/
theorem setStatus {db : Db} (inv : FaultInvariant db) (vehicleId : String)
    (status : VehicleStatus) (normal : status ≠ .fault) :
    FaultInvariant { db with vehicles := db.vehicles.set vehicleId status } := by
  have still : ∀ v, (db.vehicles.set vehicleId status).get? v = some .fault →
      db.vehicles.get? v = some .fault := by
    intro v fault
    rw [OrdMap.get?_set] at fault
    split at fault
    · cases fault
      exact (normal rfl).elim
    · exact fault
  exact ⟨inv.oneMission, inv.oneRecord, fun v fault => inv.recorded v (still v fault),
    fun v fault => inv.halted v (still v fault)⟩

theorem effect {answer} {call : Call} {answered : List (Sigma Stmt.Ret)} {reply : Reply}
    {before after : Db} (effect : Effect answer call answered reply before after)
    (inv : FaultInvariant before) : FaultInvariant after := by
  cases effect with
  | ingested read detected =>
    exact ⟨inv.oneMission, inv.oneRecord, inv.recorded, inv.halted⟩
  | alreadyInFault | unmatched => exact inv
  | enteredFault fault present other => exact inv.enterFault _ _
  | updated normal present => exact inv.setStatus _ _ normal
  | swept rows => exact ⟨inv.oneMission, inv.oneRecord, inv.recorded, inv.halted⟩

theorem assigned {held : Key → Prop} {db db' : Db} (allowed : Service.assignsMission held db db')
    (inv : FaultInvariant db) : FaultInvariant db' := by
  obtain ⟨id, m, fresh, _, normal, rfl, unique⟩ := allowed
  refine ⟨unique, inv.oneRecord, inv.recorded, fun v fault => ?_⟩
  have apart : m.vehicleId ≠ v := by
    rintro rfl
    exact normal fault
  -- a vehicle in fault got no mission, so it still has none
  rw [activeMissions_insert db id m fresh, inv.halted v fault]
  simp [Mission.activeFor, apart]

end FaultInvariant

namespace Service

/-- The committed statuses of a vehicle, from the first state of the run on. -/
def statusHistory (vehicleId : String) (db : Db) (log : List Event) :
    List (Option VehicleStatus) :=
  db.vehicles.get? vehicleId :: log.map fun e => e.after.vehicles.get? vehicleId

/-- The changes from another status to fault. -/
def faultEntries : List (Option VehicleStatus) → Nat
  | earlier :: later :: rest =>
    (if earlier ≠ some .fault ∧ later = some .fault then 1 else 0) + faultEntries (later :: rest)
  | _ => 0

theorem faultEntries_snoc (history : List (Option VehicleStatus))
    (earlier later : Option VehicleStatus) :
    faultEntries (history ++ [earlier] ++ [later]) =
      faultEntries (history ++ [earlier]) +
        if earlier ≠ some .fault ∧ later = some .fault then 1 else 0 := by
  induction history with
  | nil => simp [faultEntries]
  | cons first history ih =>
    cases history with
    | nil =>
      simp only [List.cons_append, List.nil_append, faultEntries] at ih ⊢
      omega
    | cons second history =>
      simp only [List.cons_append, faultEntries] at ih ⊢
      omega

/-- A call of `transition_to_fault` for the vehicle that returned `True`. -/
def appliedFault (vehicleId : String) : Event → Bool
  | .returned (.postVehicleStatus v update) _ reply _ _ =>
    decide (v = vehicleId) && decide (update.status = .fault) && decide (reply = .applied true)
  | _ => false

/-- One committed event applies a transition exactly if it changes the status to fault. -/
theorem appliedFault_iff (vehicleId : String) (e : Event)
    (explained : Explained assignsMission e) :
    appliedFault vehicleId e = true ↔
      e.before.vehicles.get? vehicleId ≠ some .fault ∧
        e.after.vehicles.get? vehicleId = some .fault := by
  cases e with
  | raised call error state => simp [appliedFault, Event.before, Event.after]
  | outside before after =>
    obtain ⟨_, id, m, _, _, _, rfl, _⟩ := explained
    simp [appliedFault, Event.before, Event.after]
  | returned call answered reply before after =>
    simp only [Event.before, Event.after]
    cases explained with
    | ingested | swept => simp [appliedFault, ingest]
    | alreadyInFault | unmatched => simp [appliedFault]
    -- only this commit puts the status to fault, and only for its own vehicle
    | @enteredFault v update _ _ fault present other =>
      by_cases same : v = vehicleId
      · subst same
        simp [appliedFault, fault, other, enterFault]
      · have apart : vehicleId ≠ v := fun equal => same equal.symm
        simp [appliedFault, same, enterFault, OrdMap.get?_set_of_ne _ _ _ _ apart]
    | @updated v update _ _ normal present =>
      by_cases same : v = vehicleId
      · subst same
        simp [appliedFault, normal]
      · have apart : vehicleId ≠ v := fun equal => same equal.symm
        simp [appliedFault, same, OrdMap.get?_set_of_ne _ _ _ _ apart]

section Runs

variable {db : Db} {s : State}

theorem faultInvariant_reachable (unique : db.UniqueIndexes)
    (noFault : ∀ v, db.vehicles.get? v ≠ some .fault)
    (reached : ReachableWith assignsMission db s) : FaultInvariant s.db := by
  refine Chain.invariant (fun _ db => FaultInvariant db) (Explained assignsMission)
    (Foundations.Reachable.chain reached)
    (ReachableWith.explained agree_assignsMission reached) ?_ ?_
  · exact ⟨unique.activeMission, unique.openMaintenance, fun v fault => (noFault v fault).elim,
      fun v fault => (noFault v fault).elim⟩
  · intro log e explained inv
    cases e with
    | returned call answered reply before after => exact inv.effect explained
    | raised call error state => exact inv
    | outside before after =>
      obtain ⟨_, allowed⟩ := explained
      exact inv.assigned allowed

theorem appliedFaults_reachable (reached : ReachableWith assignsMission db s) (vehicleId : String) :
    s.log.countP (appliedFault vehicleId) = faultEntries (statusHistory vehicleId db s.log) := by
  have counted := Chain.invariant
    (fun log db' => log.countP (appliedFault vehicleId) =
        faultEntries (statusHistory vehicleId db log) ∧
      ∃ history, statusHistory vehicleId db log = history ++ [db'.vehicles.get? vehicleId])
    (Explained assignsMission) (Foundations.Reachable.chain reached)
    (ReachableWith.explained agree_assignsMission reached) ⟨rfl, [], rfl⟩ ?_
  · exact counted.1
  · rintro log e explained ⟨count, history, ends⟩
    have extended : statusHistory vehicleId db (log ++ [e]) =
        statusHistory vehicleId db log ++ [e.after.vehicles.get? vehicleId] := by
      simp [statusHistory]
    refine ⟨?_, _, extended⟩
    rw [extended, ends, faultEntries_snoc, ← ends, ← count, List.countP_append]
    have changed := appliedFault_iff vehicleId e explained
    -- the count and the history grow by one exactly for the same events
    by_cases applied : appliedFault vehicleId e = true
    · simp [applied, changed.mp applied]
    · have same := mt changed.mpr applied
      rw [if_neg same]
      simp [applied]

/-- Fault handling under any interleaving, from a database within the unique indexes and
without a vehicle in fault. -/
theorem faultHandling_exactlyOnce (db : Db) (unique : db.UniqueIndexes)
    (noFault : ∀ v, db.vehicles.get? v ≠ some .fault) (s : State)
    (reached : ReachableWith assignsMission db s) :
    (∀ v, s.log.countP (appliedFault v) = faultEntries (statusHistory v db s.log)) ∧
    (∀ v update answered reply before after,
      .returned (.postVehicleStatus v update) answered reply before after ∈ s.log →
      (reply = .applied false → after.vehicles = before.vehicles ∧
        after.missions = before.missions ∧
        after.maintenanceRecords = before.maintenanceRecords) ∧
      (update.status = .fault → reply = .applied true → ∀ id, after.missions.get? id =
        if before.missions.get? id = some ⟨v, .active⟩ then some ⟨v, .cancelled⟩
        else before.missions.get? id)) ∧
    (∀ s' call error, Step postgres transaction assignsMission s s' →
      s'.log = s.log ++ [.raised call error s.db] → s'.db = s.db) ∧
    (∀ v, (s.db.vehicles.get? v = some .fault →
        (s.db.openRecords v).length = 1 ∧ s.db.activeMissions v = []) ∧
      (s.db.openRecords v).length ≤ 1) := by
  refine ⟨appliedFaults_reachable reached, ?_, ?_, ?_⟩
  · intro v update answered reply before after logged
    have effect := ReachableWith.explained agree_assignsMission reached _ logged
    cases effect with
    | alreadyInFault | unmatched => simp
    | enteredFault fault present other =>
      refine ⟨by simp, fun _ _ id => ?_⟩
      rw [missions_enterFault]
      simp only [mem_activeMissions]
    | updated normal present => exact ⟨by simp, fun fault => (normal fault).elim⟩
  · intro s' call error step raised
    -- a raised call installs nothing; the other steps add no such event to the log
    cases step with
    | begin | statement | abort | fail | raise => rfl
    | commit | outside => simp at raised
  · intro v
    have inv := faultInvariant_reachable unique noFault reached
    refine ⟨fun fault => ⟨?_, inv.halted v fault⟩, inv.oneRecord v⟩
    -- exactly one: the invariant gives one, the unique index no second
    have some := List.length_pos_iff.mpr (inv.recorded v fault)
    have atMost := inv.oneRecord v
    omega

end Runs

/-- One moving vehicle with an active mission. -/
def assignedDb : Db :=
  { Db.seeded with
    vehicles := OrdMap.empty.set "agv-1" .moving
    missions := (OrdMap.empty : OrdMap Nat Mission).set 7 ⟨"agv-1", .active⟩ }

theorem assignedDb_unique : assignedDb.UniqueIndexes where
  activeMission v := by
    rw [Db.activeMissions, List.length_map]
    exact List.length_filter_le _ assignedDb.missions.entries
  openMaintenance v := Nat.zero_le 1

theorem assignedDb_noFault (v : String) : assignedDb.vehicles.get? v ≠ some .fault := by
  simp only [assignedDb, OrdMap.get?_set]
  split <;> simp

/-- Two identical fault calls race for the row: the second waits, then finds the fault. -/
theorem faultHandling_exactlyOnce_duplicate :
    ∃ s, ReachableWith assignsMission assignedDb s ∧
      s.db.vehicles.get? "agv-1" = some .fault ∧
      s.log.countP (appliedFault "agv-1") = 1 ∧
      faultEntries (statusHistory "agv-1" assignedDb s.log) = 1 ∧
      (s.db.openRecords "agv-1").length = 1 ∧ s.db.activeMissions "agv-1" = [] := by
  obtain ⟨s, reached, held⟩ := exists_reachable assignsMission [0, 1] assignedDb
    [.begin 0 (.postVehicleStatus "agv-1" ⟨.fault, some "lidar"⟩),
      .begin 1 (.postVehicleStatus "agv-1" ⟨.fault, none⟩),
      .advance 0, .advance 0, .advance 0, .advance 0, .advance 0, .advance 1, .advance 1]
    (fun s => decide (s.db.vehicles.get? "agv-1" = some .fault) &&
      decide (s.log.countP (appliedFault "agv-1") = 1))
    (by decide +kernel)
  simp only [Bool.and_eq_true, decide_eq_true_eq] at held
  obtain ⟨entries, _, _, states⟩ :=
    faultHandling_exactlyOnce assignedDb assignedDb_unique assignedDb_noFault s reached
  -- the second call finds the vehicle in fault and adds nothing
  have halted := (states "agv-1").1 held.1
  exact ⟨s, reached, held.1, held.2, (entries "agv-1").symm.trans held.2, halted.1, halted.2⟩

end Service

end FleetTelemetry
