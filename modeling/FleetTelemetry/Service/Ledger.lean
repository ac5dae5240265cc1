import FleetTelemetry.Service.Maintenance

/-!
# Missions and maintenance records over whole runs

What a run leaves in the two tables, read off the calls that returned. A mission changes at
most once, when a fault of its vehicle is applied. The records that are added are those of
the first applied fault of each vehicle that had none open.
-/

namespace FleetTelemetry

open Foundations

/-- The mission once a fault of its vehicle may have been applied. -/
def Mission.halt (m : Mission) (faulted : Bool) : Mission :=
  if faulted = true ∧ m.status = .active then { m with status := .cancelled } else m

namespace Mission

@[simp] theorem vehicleId_halt (m : Mission) (faulted : Bool) :
    (m.halt faulted).vehicleId = m.vehicleId := by
  unfold halt
  split <;> rfl

theorem halt_halt (m : Mission) (first second : Bool) :
    (m.halt first).halt second = m.halt (first || second) := by
  obtain ⟨v, status⟩ := m
  cases first <;> cases second <;> cases status <;> rfl

theorem halt_of_settled {m : Mission} (settled : m.status ≠ .active) (faulted : Bool) :
    m.halt faulted = m :=
  if_neg fun both => settled both.2

end Mission

namespace Service

/-- The record of a call that put a vehicle into fault. -/
def faultRecord : Event → Option MaintenanceRecord
  | .returned (.postVehicleStatus v update) _ reply before _ =>
    if update.status = .fault ∧ reply = .applied true then
      some ⟨v, (before.activeMissions v).head?, update.reason.map PyStr.text, false⟩
    else none
  | _ => none

def faultRecords (log : List Event) : List MaintenanceRecord := log.filterMap faultRecord

def ofVehicle (vehicleId : String) (r : MaintenanceRecord) : Bool :=
  decide (r.vehicleId = vehicleId)

section Events

variable {e : Event} {log : List Event} {r : MaintenanceRecord}

/-- What a logged event does to the two tables: an applied fault is one `enterFault`, anything
else leaves the records and every mission there was. -/
theorem event_cases (explained : Explained assignsMission e) :
    (∃ v reason, faultRecord e =
        some ⟨v, (e.before.activeMissions v).head?, reason.map PyStr.text, false⟩ ∧
      (∀ v', appliedFault v' e = decide (v = v')) ∧ e.after = enterFault v reason e.before) ∨
    (faultRecord e = none ∧ (∀ v, appliedFault v e = false) ∧
      e.after.maintenanceRecords = e.before.maintenanceRecords ∧
      ∀ id m, e.before.missions.get? id = some m → e.after.missions.get? id = some m) := by
  cases e with
  | raised call error state => exact .inr ⟨rfl, fun _ => rfl, rfl, fun _ _ => id⟩
  -- a mission assigned from outside is a new one
  | outside before after =>
    obtain ⟨_, new, m, fresh, _, _, rfl, _⟩ := explained
    refine .inr ⟨rfl, fun _ => rfl, rfl, fun id m' found => ?_⟩
    have apart : id ≠ new := by
      rintro rfl
      exact Option.some_ne_none m' (found.symm.trans fresh)
    exact (OrdMap.get?_set_of_ne _ _ _ _ apart).trans found
  | returned call answered reply before after =>
    cases explained with
    -- of the calls, only a fault that is applied writes to either table
    | ingested | swept => exact .inr ⟨rfl, fun _ => rfl, rfl, fun _ _ => id⟩
    | alreadyInFault fault already =>
      exact .inr ⟨by simp [faultRecord], by simp [appliedFault], rfl, fun _ _ => id⟩
    | unmatched normal absent =>
      exact .inr ⟨by simp [faultRecord], by simp [appliedFault], rfl, fun _ _ => id⟩
    | updated normal present =>
      exact .inr ⟨by simp [faultRecord, normal], by simp [appliedFault, normal], rfl,
        fun _ _ => id⟩
    | @enteredFault v update _ _ fault present other =>
      exact .inl ⟨v, update.reason, by simp [faultRecord, fault, Event.before],
        by simp [appliedFault, fault], rfl⟩

theorem missions_event (explained : Explained assignsMission e) {id : Nat} {m : Mission}
    (found : e.before.missions.get? id = some m) :
    e.after.missions.get? id = some (m.halt (appliedFault m.vehicleId e)) := by
  rcases event_cases explained with ⟨v, reason, _, applied, entered⟩ | ⟨_, none, _, kept⟩
  · rw [entered, missions_enterFault, applied, found]
    simp only [mem_activeMissions, found, Option.some.injEq]
    obtain ⟨v', status⟩ := m
    by_cases same : v = v'
    · subst same
      cases status <;> simp [Mission.halt]
    · have apart : ¬v' = v := fun equal => same equal.symm
      simp [Mission.halt, same, apart]
  · rw [kept id m found, none]
    rfl

theorem faultRecords_snoc (log : List Event) (e : Event) :
    faultRecords (log ++ [e]) = faultRecords log ++ (faultRecord e).toList := by
  unfold faultRecords
  rw [List.filterMap_append]
  cases recorded : faultRecord e <;> simp [recorded]

theorem unresolved_of_mem (member : r ∈ faultRecords log) : r.resolved = false := by
  obtain ⟨e, _, recorded⟩ := List.mem_filterMap.mp member
  unfold faultRecord at recorded
  split at recorded
  · split at recorded
    · cases recorded
      rfl
    · cases recorded
  · cases recorded

end Events

/-- A mission of one committed state in a later one: cancelled if it was active and a fault of
its vehicle has been applied in between, and else as it was. -/
theorem missions_between (db : Db) (s : State) (reached : ReachableWith assignsMission db s)
    (n m : Nat) (order : n ≤ m) (id : Nat) (mission : Mission)
    (found : (committed db (s.log.take n)).missions.get? id = some mission) :
    (committed db (s.log.take m)).missions.get? id =
      some (mission.halt
        (((s.log.take m).drop n).any (appliedFault mission.vehicleId))) := by
  have between := Chain.between (Foundations.Reachable.chain reached) order
  have explained : ∀ e ∈ (s.log.take m).drop n, Explained assignsMission e := fun e logged =>
    ReachableWith.explained agree_assignsMission reached e
      (List.mem_of_mem_take (List.mem_of_mem_drop logged))
  -- once halted a mission stays halted, so one applied fault in between is enough
  refine Chain.invariant (fun log db' => db'.missions.get? id =
    some (mission.halt (log.any (appliedFault mission.vehicleId)))) (Explained assignsMission)
    between explained found ?_
  intro log e explained held
  have next := missions_event explained held
  rw [Mission.vehicleId_halt, Mission.halt_halt] at next
  rw [next, List.any_append, List.any_cons, List.any_nil, Bool.or_false]

theorem missions_between_cancelled :
    ∃ s, ReachableWith assignsMission assignedDb s ∧
      (committed assignedDb (s.log.take s.log.length)).missions.get? 7 =
        some ⟨"agv-1", .cancelled⟩ := by
  have ⟨s, reached, applied⟩ := exists_reachable assignsMission [0] assignedDb breakdowns
    (fun s => s.log.any (appliedFault "agv-1")) (by decide +kernel)
  have between := missions_between assignedDb s reached 0 s.log.length (Nat.zero_le _) 7
    ⟨"agv-1", .active⟩ rfl
  refine ⟨s, reached, between.trans ?_⟩
  rw [List.take_length, List.drop_zero, applied]
  rfl

/-- The records that a run has added. -/
structure Ledger (db : Db) (log : List Event) (db' : Db) (added : List MaintenanceRecord) :
    Prop where
  records : db'.maintenanceRecords = db.maintenanceRecords ++ added
  inOrder : added.Sublist (faultRecords log)
  first : ∀ v, added.filter (ofVehicle v) =
    if db.openRecords v = [] then ((faultRecords log).find? (ofVehicle v)).toList else []

/-- The missions that applied faults have cancelled. -/
structure Cancelled (log : List Event) (db' : Db) : Prop where
  cancelled : ∀ r ∈ faultRecords log, ∀ id, r.missionId = some id →
    db'.missions.get? id = some ⟨r.vehicleId, .cancelled⟩
  once : ((faultRecords log).filterMap MaintenanceRecord.missionId).Nodup

section Steps

variable {db : Db} {log : List Event} {e : Event} {added : List MaintenanceRecord}

/-- The open records of a vehicle are those it had and its added one. -/
theorem Ledger.openRecords {db' : Db} (ledger : Ledger db log db' added) (v : String) :
    db'.openRecords v = db.openRecords v ++ added.filter (ofVehicle v) := by
  rw [Db.openRecords, ledger.records, List.filter_append]
  congr 1
  apply List.filter_congr
  intro r member
  have unresolved := unresolved_of_mem (ledger.inOrder.subset member)
  simp [MaintenanceRecord.openFor, ofVehicle, unresolved]

theorem Ledger.event (ledger : Ledger db log e.before added)
    (explained : Explained assignsMission e) :
    ∃ added', Ledger db (log ++ [e]) e.after added' := by
  rcases event_cases explained with ⟨v, reason, recorded, _, entered⟩ | ⟨unrecorded, _, same, _⟩
  · have grown := faultRecords_snoc log e
    rw [recorded, Option.toList_some] at grown
    have records := @maintenanceRecords_enterFault v reason e.before
    rw [← entered, ledger.records] at records
    have opened := ledger.openRecords v
    by_cases none : e.before.openRecords v = []
    -- the first fault of a vehicle without an open record
    · obtain ⟨before, unadded⟩ := List.append_eq_nil_iff.mp (opened.symm.trans none)
      have unseen := ledger.first v
      rw [unadded, if_pos before] at unseen
      have unseen := Option.toList_eq_nil_iff.mp unseen.symm
      refine ⟨added ++ [⟨v, (e.before.activeMissions v).head?, reason.map PyStr.text, false⟩],
        ?_, ?_, ?_⟩
      · rw [records, if_pos none, List.append_assoc]
      · rw [grown]
        exact ledger.inOrder.append (List.Sublist.refl _)
      · intro v'
        rw [List.filter_append, ledger.first v', grown, List.find?_append]
        by_cases here : v = v'
        · subst here
          simp [before, unseen, ofVehicle]
        · simp [here, ofVehicle]
    · refine ⟨added, ?_, ?_, ?_⟩
      · rw [records, if_neg none, List.append_nil]
      · rw [grown]
        exact ledger.inOrder.trans (List.sublist_append_left _ _)
      · intro v'
        rw [ledger.first v', grown, List.find?_append]
        by_cases here : v = v'
        · subst here
          by_cases before : db.openRecords v = []
          · -- an earlier fault of the vehicle has left the record that is open
            have seen := ledger.first v
            rw [opened, before, List.nil_append, seen, if_pos before] at none
            obtain ⟨r, found⟩ := Option.ne_none_iff_exists'.mp
              (mt Option.toList_eq_nil_iff.mpr none)
            simp [before, found]
          · simp [before]
        · simp [here, ofVehicle]
  · have grown := faultRecords_snoc log e
    rw [unrecorded, Option.toList_none, List.append_nil] at grown
    refine ⟨added, same.trans ledger.records, ?_, ?_⟩
    · rw [grown]
      exact ledger.inOrder
    · rw [grown]
      exact ledger.first

theorem Cancelled.event (cancelled : Cancelled log e.before)
    (explained : Explained assignsMission e) : Cancelled (log ++ [e]) e.after := by
  -- a cancelled mission is settled, and no event changes a settled one
  have stays : ∀ r ∈ faultRecords log, ∀ id, r.missionId = some id →
      e.after.missions.get? id = some ⟨r.vehicleId, .cancelled⟩ := by
    intro r member id named
    rw [missions_event explained (cancelled.cancelled r member id named),
      Mission.halt_of_settled (by simp)]
  have grown := faultRecords_snoc log e
  rcases event_cases explained with ⟨v, reason, recorded, applied, _⟩ | ⟨unrecorded, _, _, _⟩
  · rw [recorded, Option.toList_some] at grown
    have active : ∀ id, (e.before.activeMissions v).head? = some id →
        e.before.missions.get? id = some ⟨v, .active⟩ := fun id named =>
      (mem_activeMissions ..).mp (List.mem_of_head? named)
    constructor
    · intro r member id named
      rw [grown] at member
      rcases List.mem_append.mp member with old | new
      · exact stays r old id named
      · obtain rfl := List.mem_singleton.mp new
        rw [missions_event explained (active id named), applied]
        simp [Mission.halt]
    · rw [grown, List.filterMap_append, List.nodup_append]
      refine ⟨cancelled.once, ?_, ?_⟩
      · cases (e.before.activeMissions v).head? <;> simp
      · -- a mission that is cancelled now was active, so no earlier fault had cancelled it
        intro id earlier id' now same
        subst same
        obtain ⟨r, member, named⟩ := List.mem_filterMap.mp earlier
        obtain ⟨r', new, named'⟩ := List.mem_filterMap.mp now
        obtain rfl := List.mem_singleton.mp new
        have was := cancelled.cancelled r member id named
        rw [active id named'] at was
        cases was
  · rw [unrecorded, Option.toList_none, List.append_nil] at grown
    exact ⟨grown ▸ stays, grown ▸ cancelled.once⟩

end Steps

/-- In every interleaving the records that are added are, in commit order, those of the first
applied fault of each vehicle that had none open; and every applied fault has cancelled a
mission of its own, which stays cancelled. -/
theorem maintenanceRecords_ledger (db : Db) (s : State)
    (reached : ReachableWith assignsMission db s) :
    (∃ added, Ledger db s.log s.db added) ∧ Cancelled s.log s.db := by
  refine Chain.invariant
    (fun log db' => (∃ added, Ledger db log db' added) ∧ Cancelled log db')
    (Explained assignsMission) (Foundations.Reachable.chain reached)
    (ReachableWith.explained agree_assignsMission reached) ?_ ?_
  · refine ⟨⟨[], ?_, List.Sublist.refl _, ?_⟩, nofun, List.nodup_nil⟩
    · rw [List.append_nil]
    · intro v
      split <;> rfl
  · rintro log e explained ⟨⟨added, ledger⟩, cancelled⟩
    exact ⟨ledger.event explained, cancelled.event explained⟩

/-- Two faults of one vehicle, and the mission of the first. -/
theorem maintenanceRecords_ledger_breakdowns :
    ∃ s, ReachableWith assignsMission assignedDb s ∧
      faultRecords s.log =
        [⟨"agv-1", some 7, some "lidar", false⟩, ⟨"agv-1", none, some "brakes", false⟩] ∧
      (∃ added, Ledger assignedDb s.log s.db added) ∧ Cancelled s.log s.db := by
  have ⟨s, reached, faults⟩ := exists_reachable assignsMission [0] assignedDb breakdowns
    (fun s => decide (faultRecords s.log =
      [⟨"agv-1", some 7, some "lidar", false⟩, ⟨"agv-1", none, some "brakes", false⟩]))
    (by decide +kernel)
  exact ⟨s, reached, of_decide_eq_true faults, maintenanceRecords_ledger assignedDb s reached⟩

end Service

end FleetTelemetry
