import FleetTelemetry.Service.Calls
import FleetTelemetry.Store.Locks

/-!
# What a committed call does

The effect of each write operation as one change of the database, and the theorems that
the statements of the operation add up to it: run alone, and at the commit of any
interleaving, where only the prior reading may be out of date.
-/

namespace FleetTelemetry

open Foundations

def countEntry (zoneEntered : Option String) (zoneCounts : OrdMap String Int) :
    OrdMap String Int :=
  match zoneEntered with
  | none => zoneCounts
  | some zone =>
    match zoneCounts.get? zone with
    | none => zoneCounts
    | some n => zoneCounts.set zone (n + 1)

/-- The effect of a committed event whose rules fired as given. -/
def ingest (event : TelemetryEvent) (anomalies : List Firing) (db : Db) : Db :=
  { db with
    rawEvents := db.rawEvents ++ [event.rawEvent]
    vehicleCurrentState := db.vehicleCurrentState.set event.vehicleId event.currentState
    zoneCounts := countEntry event.zone db.zoneCounts
    anomalies := db.anomalies ++ anomalies.map event.anomaly }

/-- The effect of a transition to fault that is applied. -/
def enterFault (vehicleId : String) (reason : Option PyStr) (db : Db) : Db :=
  { db with
    missions := (db.activeMissions vehicleId).foldl
      (fun missions id => missions.set id ⟨vehicleId, .cancelled⟩) db.missions
    maintenanceRecords :=
      if (db.openRecords vehicleId).isEmpty
      then db.maintenanceRecords ++
        [⟨vehicleId, (db.activeMissions vehicleId).head?, reason.map PyStr.text, false⟩]
      else db.maintenanceRecords
    vehicles := db.vehicles.set vehicleId .fault }

section Bodies

theorem insertAnomalies_all {P : Stmt → Prop} (event : TelemetryEvent)
    (anomaly : ∀ row, P (.insertAnomaly row)) (anomalies : List Firing) :
    (insertAnomalies event anomalies).All P := by
  induction anomalies with
  | nil => exact .ret ()
  | cons firing rest ih => exact .exec (anomaly _) fun _ => ih

/-- What `persist_telemetry` sends once the rules have been evaluated. -/
def writeReading (event : TelemetryEvent) (anomalies : List Firing) : Transaction Unit :=
  .exec (.insertRaw event.rawEvent) fun _ =>
    .exec (.upsertCurrent event.vehicleId event.currentState) fun _ =>
      match event.zoneEntered with
      | some zone => .exec (.incrementZone zone) fun _ => insertAnomalies event anomalies
      | none => insertAnomalies event anomalies

theorem persistTelemetry_eq (event : TelemetryEvent) :
    persistTelemetry event = .exec (.selectPrior event.vehicleId) fun prior =>
      match detectAnomalies event prior with
      | .error e => .raise e
      | .ok anomalies => writeReading event anomalies := by
  unfold persistTelemetry writeReading
  cases event.zoneEntered <;> rfl

theorem writeReading_all {P : Stmt → Prop} (event : TelemetryEvent)
    (raw : ∀ row, P (.insertRaw row)) (current : ∀ v row, P (.upsertCurrent v row))
    (zone : ∀ z, P (.incrementZone z)) (anomaly : ∀ row, P (.insertAnomaly row))
    (anomalies : List Firing) : (writeReading event anomalies).All P := by
  refine .exec (raw _) fun _ => .exec (current _ _) fun _ => ?_
  split
  · exact .exec (zone _) fun _ => insertAnomalies_all event anomaly anomalies
  · exact insertAnomalies_all event anomaly anomalies

theorem persistTelemetry_disciplined (event : TelemetryEvent) (ks : List Key) :
    (persistTelemetry event).Disciplined Stmt.lockPolicy ks := by
  rw [persistTelemetry_eq]
  refine .exec (List.nil_subset ks) fun prior => ?_
  split
  · exact .raise _ _
  · apply Txn.All.disciplined
    exact writeReading_all event (fun _ => rfl) (fun _ _ => rfl) (fun _ => rfl) (fun _ => rfl) _

/-- What `transition_to_fault` sends once it holds the row of a vehicle not in fault. -/
def flipToFault (vehicleId : String) (reason : Option PyStr) : Transaction Bool :=
  .exec (.cancelActiveMission vehicleId) fun missionId =>
    .exec (.insertMaintenance vehicleId missionId reason) fun _ =>
      .exec (.setVehicleFault vehicleId) fun _ => .ret true

theorem transitionToFault_eq (vehicleId : String) (reason : Option PyStr) :
    transitionToFault vehicleId reason = .exec (.lockVehicle vehicleId) fun row =>
      match row with
      | none => .raise (.lookupError ("unknown vehicle: " ++ vehicleId))
      | some status => if status = .fault then .ret false else flipToFault vehicleId reason := by
  unfold transitionToFault flipToFault
  apply congrArg (Txn.exec _)
  funext row
  cases row with
  | none => rfl
  | some status => cases status <;> rfl

theorem transitionToFault_disciplined (vehicleId : String) (reason : Option PyStr)
    (ks : List Key) : (transitionToFault vehicleId reason).Disciplined Stmt.lockPolicy ks := by
  rw [transitionToFault_eq]
  refine .exec (List.nil_subset ks) fun row => ?_
  cases row with
  | none => exact .raise _ _
  | some status =>
    dsimp only
    split
    · exact .ret _ _
    -- the lock on the vehicle row is held through the three writes
    · have locked : [Key.vehicle vehicleId] ⊆
          ks ++ Stmt.lockPolicy.gains (.lockVehicle vehicleId) (some status) :=
        List.subset_append_right ks _
      refine .exec locked fun missionId => ?_
      have locked' := List.Subset.trans locked (List.subset_append_left _
        (Stmt.lockPolicy.gains (.cancelActiveMission vehicleId) missionId))
      exact .exec locked' fun _ => .exec (List.nil_subset _) fun _ => .ret _ _

theorem transaction_disciplined (call : Call) :
    (transaction call).Disciplined Stmt.lockPolicy [] := by
  cases call with
  | postTelemetry event =>
    exact (persistTelemetry_disciplined event []).bind fun _ ks _ => .ret ks _
  | postVehicleStatus vehicleId update =>
    refine Txn.Disciplined.bind ?_ fun _ ks _ => .ret ks _
    unfold statusTransaction
    split
    · exact transitionToFault_disciplined vehicleId update.reason []
    · exact .exec (List.nil_subset _) fun _ => .ret _ _
  | sweep now => exact .exec (List.nil_subset _) fun _ => .ret _ _

end Bodies

section Effects

variable {answer : Db → (q : Stmt) → q.Ret → List Write → Prop}

/-- The answer of a statement that is never loose is the one the state gives. -/
theorem execute_of_allowed {db : Db} {q : Stmt} {r : q.Ret} {ws : List Write}
    (allowed : Stmt.lockPolicy.Allowed postgres db q r ws)
    (strict : ¬Stmt.lockPolicy.loose q r ws) : q.execute db = .ok (r, ws) := by
  rcases allowed with done | loose
  · exact (Stmt.exec_ok done).2
  · exact (strict loose).elim

theorem incrementZone_effect {db : Db} {zone : PyStr} {r : Unit} {ws : List Write}
    (done : (Stmt.incrementZone zone).execute db = .ok (r, ws)) :
    postgres.writeAll ws db =
      { db with zoneCounts := countEntry (some zone.text) db.zoneCounts } := by
  simp only [Stmt.execute] at done
  split at done
  next absent =>
    cases done
    simp [countEntry, absent]
  next n present =>
    split at done
    · cases done
    · cases done
      simp [countEntry, present, postgres, Write.apply]

variable (allowed : ∀ db q r ws, answer db q r ws → Stmt.lockPolicy.Allowed postgres db q r ws)

include allowed

theorem insertAnomalies_effect (event : TelemetryEvent) (anomalies : List Firing) {db : Db}
    {answered ws} {u : Unit}
    (replays : Replays postgres answer db (insertAnomalies event anomalies) answered ws (.ret u)) :
    postgres.writeAll ws db =
      { db with anomalies := db.anomalies ++ anomalies.map event.anomaly } := by
  induction anomalies generalizing db answered ws with
  | nil =>
    obtain ⟨_, _, rfl⟩ := replays.ret_inv
    simp
  | cons firing rest ih =>
    obtain ⟨r, ws₁, _, ws₂, first, later, _, rfl⟩ := Replays.exec_inv replays
    have done := execute_of_allowed (allowed _ _ _ _ first) id
    cases done
    rw [Engine.writeAll_append, ih later]
    simp [postgres, Write.apply]

theorem writeReading_effect (event : TelemetryEvent) (anomalies : List Firing) {db : Db}
    {answered ws} {u : Unit}
    (replays : Replays postgres answer db (writeReading event anomalies) answered ws (.ret u)) :
    postgres.writeAll ws db = ingest event anomalies db := by
  obtain ⟨_, ws₁, _, ws₂, first, later, _, rfl⟩ := Replays.exec_inv replays
  obtain ⟨_, ws₃, _, ws₄, second, rest, _, rfl⟩ := Replays.exec_inv later
  have raw := execute_of_allowed (allowed _ _ _ _ first) id
  have current := execute_of_allowed (allowed _ _ _ _ second) id
  cases raw
  cases current
  rw [Engine.writeAll_append, Engine.writeAll_append]
  -- the counter is written between the current state and the anomalies, or not at all
  split at rest
  next zone entered =>
    obtain ⟨_, ws₅, _, ws₆, third, last, _, rfl⟩ := Replays.exec_inv rest
    have counted := execute_of_allowed (allowed _ _ _ _ third) id
    rw [Engine.writeAll_append, insertAnomalies_effect allowed event anomalies last,
      incrementZone_effect counted]
    simp [ingest, TelemetryEvent.zone, entered, postgres, Write.apply]
  next entered =>
    rw [insertAnomalies_effect allowed event anomalies rest]
    simp [ingest, TelemetryEvent.zone, entered, countEntry, postgres, Write.apply]

/-- A persisted event: its rules were evaluated against the prior reading its first
statement answered, and everything it wrote adds up to one `ingest`. -/
theorem persistTelemetry_effect (event : TelemetryEvent) {db : Db} {answered ws} {u : Unit}
    (replays : Replays postgres answer db (persistTelemetry event) answered ws (.ret u)) :
    ∃ prior anomalies rest, answered = ⟨.selectPrior event.vehicleId, prior⟩ :: rest ∧
      answer db (.selectPrior event.vehicleId) prior [] ∧
      detectAnomalies event prior = .ok anomalies ∧
      postgres.writeAll ws db = ingest event anomalies db := by
  rw [persistTelemetry_eq] at replays
  obtain ⟨prior, ws₁, rest, ws₂, first, later, rfl, rfl⟩ := replays.exec_inv
  -- the select writes nothing, whether it is answered from this state or an older one
  have silent : ws₁ = [] := by
    rcases allowed _ _ _ _ first with done | loose
    · exact (Stmt.execute_selectPrior (Stmt.exec_ok done).2).2.1
    · exact loose.1
  subst silent
  split at later
  · exact later.raise_inv.elim
  next anomalies detected =>
    exact ⟨prior, anomalies, rest, rfl, first, detected,
      writeReading_effect allowed event anomalies later⟩

omit allowed in
theorem cancelAll_effect (vehicleId : String) (ids : List Nat) (db : Db) :
    postgres.writeAll (ids.map fun id => .putMission id ⟨vehicleId, .cancelled⟩) db =
      { db with
        missions := ids.foldl (fun missions id => missions.set id ⟨vehicleId, .cancelled⟩)
          db.missions } := by
  induction ids generalizing db with
  | nil => rfl
  | cons id ids ih =>
    rw [List.map_cons, Engine.writeAll_cons, ih]
    rfl

theorem flipToFault_effect (vehicleId : String) (reason : Option PyStr) {db : Db}
    (present : vehicleId ∈ db.vehicles.keys) {answered ws} {applied : Bool}
    (replays : Replays postgres answer db (flipToFault vehicleId reason) answered ws
      (.ret applied)) :
    applied = true ∧ postgres.writeAll ws db = enterFault vehicleId reason db := by
  obtain ⟨missionId, ws₁, _, _, first, later₁, _, rfl⟩ := Replays.exec_inv replays
  obtain ⟨_, ws₂, _, _, second, later₂, _, rfl⟩ := Replays.exec_inv later₁
  obtain ⟨_, ws₃, _, _, third, later₃, _, rfl⟩ := Replays.exec_inv later₂
  obtain ⟨rfl, _, rfl⟩ := Replays.ret_inv later₃
  have cancelled := execute_of_allowed (allowed _ _ _ _ first) id
  have recorded := execute_of_allowed (allowed _ _ _ _ second) id
  have flipped := execute_of_allowed (allowed _ _ _ _ third) id
  simp only [Stmt.execute, Except.ok.injEq, Prod.mk.injEq, true_and] at cancelled recorded flipped
  obtain ⟨rfl, rfl⟩ := cancelled
  subst recorded
  subst flipped
  refine ⟨rfl, ?_⟩
  simp only [Engine.writeAll_append, cancelAll_effect]
  -- cancelling the missions leaves the open records as they were, so the insert is decided
  -- by the state before the transition
  by_cases none : (db.openRecords vehicleId).isEmpty = true
  · have none' : (Db.openRecords { db with
        missions := (db.activeMissions vehicleId).foldl
          (fun missions id => missions.set id ⟨vehicleId, .cancelled⟩) db.missions }
        vehicleId).isEmpty = true := none
    simp [enterFault, none, none', postgres, Write.apply, present]
  · have none' : ¬(Db.openRecords { db with
        missions := (db.activeMissions vehicleId).foldl
          (fun missions id => missions.set id ⟨vehicleId, .cancelled⟩) db.missions }
        vehicleId).isEmpty = true := none
    simp [enterFault, none, none', postgres, Write.apply, present]

theorem transitionToFault_effect (vehicleId : String) (reason : Option PyStr) {db : Db}
    {answered ws} {applied : Bool}
    (replays : Replays postgres answer db (transitionToFault vehicleId reason) answered ws
      (.ret applied)) :
    (db.vehicles.get? vehicleId = some .fault ∧ applied = false ∧
      postgres.writeAll ws db = db) ∨
    (vehicleId ∈ db.vehicles.keys ∧ db.vehicles.get? vehicleId ≠ some .fault ∧ applied = true ∧
      postgres.writeAll ws db = enterFault vehicleId reason db) := by
  rw [transitionToFault_eq] at replays
  obtain ⟨row, ws₁, _, ws₂, first, later, _, rfl⟩ := Replays.exec_inv replays
  have locked := execute_of_allowed (allowed _ _ _ _ first) id
  simp only [Stmt.execute, Except.ok.injEq, Prod.mk.injEq] at locked
  obtain ⟨found, rfl⟩ := locked
  -- an unknown vehicle raises, so nothing is committed
  cases row with
  | none => exact (Replays.raise_inv later).elim
  | some status =>
    have present : vehicleId ∈ db.vehicles.keys := by simp [OrdMap.mem_keys_iff, found]
    dsimp only at later
    split at later
    next already =>
      subst already
      obtain ⟨rfl, _, rfl⟩ := Replays.ret_inv later
      exact .inl ⟨found, rfl, rfl⟩
    next other =>
      obtain ⟨rfl, effect⟩ := flipToFault_effect allowed vehicleId reason present later
      exact .inr ⟨present, by simpa [found] using other, rfl, effect⟩

theorem setVehicleStatus_effect (vehicleId : String) (status : VehicleStatus) {db : Db}
    {answered ws} {applied : Bool}
    (replays : Replays postgres answer db (setVehicleStatus vehicleId status) answered ws
      (.ret applied)) :
    (vehicleId ∉ db.vehicles.keys ∧ applied = false ∧ postgres.writeAll ws db = db) ∨
    (vehicleId ∈ db.vehicles.keys ∧ applied = true ∧
      postgres.writeAll ws db = { db with vehicles := db.vehicles.set vehicleId status }) := by
  obtain ⟨rowcount, ws₁, _, ws₂, first, later, _, rfl⟩ := Replays.exec_inv replays
  obtain ⟨rfl, _, rfl⟩ := Replays.ret_inv later
  have updated := execute_of_allowed (allowed _ _ _ _ first) id
  simp only [Stmt.execute] at updated
  -- the answer is the number of matched rows, changed or not
  split at updated
  next present =>
    cases updated
    exact .inr ⟨by simpa using present, rfl, rfl⟩
  next absent =>
    cases updated
    exact .inl ⟨by simpa using absent, rfl, rfl⟩

omit allowed in
theorem appendAnomalies_effect {ws : List Write} (only : ∀ w ∈ ws, ∃ row, w = .appendAnomaly row)
    (db : Db) : ∃ rows,
      postgres.writeAll ws db = { db with anomalies := db.anomalies ++ rows } := by
  induction ws generalizing db with
  | nil => exact ⟨[], by simp⟩
  | cons w ws ih =>
    obtain ⟨row, rfl⟩ := only w List.mem_cons_self
    obtain ⟨rows, effect⟩ := ih (fun w member => only w (List.mem_cons_of_mem _ member))
      (Write.apply db (.appendAnomaly row))
    refine ⟨row :: rows, ?_⟩
    rw [Engine.writeAll_cons]
    refine Eq.trans effect ?_
    simp [Write.apply]

omit allowed in
theorem insertCommsLoss_writes {detail : String} {now cutoff : Int} {db : Db} {n : Nat}
    {ws : List Write}
    (sent : Stmt.lockPolicy.Allowed postgres db (.insertCommsLoss detail now cutoff) n ws) :
    ∀ w ∈ ws, ∃ row, w = .appendAnomaly row := by
  rcases sent with done | loose
  · intro w member
    have executed := (Stmt.exec_ok done).2
    cases executed
    obtain ⟨v, _, rfl⟩ := List.mem_map.mp member
    exact ⟨_, rfl⟩
  · exact loose

theorem detectCommsLoss_effect (now : Int) {db : Db} {answered ws} {n : Nat}
    (replays : Replays postgres answer db (detectCommsLoss now) answered ws (.ret n)) :
    ∃ rows, postgres.writeAll ws db = { db with anomalies := db.anomalies ++ rows } := by
  obtain ⟨_, ws₁, _, ws₂, first, later, _, rfl⟩ := Replays.exec_inv replays
  obtain ⟨_, _, rfl⟩ := Replays.ret_inv later
  rw [List.append_nil]
  exact appendAnomalies_effect (insertCommsLoss_writes (allowed _ _ _ _ first)) db

end Effects

/-- What a call that returned did to the database it committed in. -/
inductive Effect (answer : Db → (q : Stmt) → q.Ret → List Write → Prop) :
    Call → List (Sigma Stmt.Ret) → Reply → Db → Db → Prop
  | ingested {event prior anomalies rest db}
      (read : answer db (.selectPrior event.vehicleId) prior [])
      (detected : detectAnomalies event prior = .ok anomalies) :
      Effect answer (.postTelemetry event) (⟨.selectPrior event.vehicleId, prior⟩ :: rest)
        .accepted db (ingest event anomalies db)
  | alreadyInFault {vehicleId update answered db} (fault : update.status = .fault)
      (already : db.vehicles.get? vehicleId = some .fault) :
      Effect answer (.postVehicleStatus vehicleId update) answered (.applied false) db db
  | enteredFault {vehicleId update answered db} (fault : update.status = .fault)
      (present : vehicleId ∈ db.vehicles.keys)
      (other : db.vehicles.get? vehicleId ≠ some .fault) :
      Effect answer (.postVehicleStatus vehicleId update) answered (.applied true) db
        (enterFault vehicleId update.reason db)
  | unmatched {vehicleId update answered db} (normal : update.status ≠ .fault)
      (absent : vehicleId ∉ db.vehicles.keys) :
      Effect answer (.postVehicleStatus vehicleId update) answered (.applied false) db db
  | updated {vehicleId update answered db} (normal : update.status ≠ .fault)
      (present : vehicleId ∈ db.vehicles.keys) :
      Effect answer (.postVehicleStatus vehicleId update) answered (.applied true) db
        { db with vehicles := db.vehicles.set vehicleId update.status }
  | swept {now answered n db} (rows : List Anomaly) :
      Effect answer (.sweep now) answered (.flagged n) db
        { db with anomalies := db.anomalies ++ rows }

theorem transaction_effect {answer : Db → (q : Stmt) → q.Ret → List Write → Prop}
    (allowed : ∀ db q r ws, answer db q r ws → Stmt.lockPolicy.Allowed postgres db q r ws)
    (call : Call) {db : Db} {answered ws} {reply : Reply}
    (replays : Replays postgres answer db (transaction call) answered ws (.ret reply)) :
    Effect answer call answered reply db (postgres.writeAll ws db) := by
  -- each call is its transaction, then a reply that sends no statement
  cases call with
  | postTelemetry event =>
    obtain ⟨_, as, ws₁, _, ws₂, body, last, rfl, rfl⟩ := Replays.bind_inv replays
    obtain ⟨rfl, rfl, rfl⟩ := Replays.ret_inv last
    obtain ⟨prior, anomalies, rest, rfl, read, detected, effect⟩ :=
      persistTelemetry_effect allowed event body
    rw [List.append_nil, List.append_nil, effect]
    exact .ingested read detected
  | postVehicleStatus vehicleId update =>
    obtain ⟨applied, as, ws₁, _, ws₂, body, last, rfl, rfl⟩ := Replays.bind_inv replays
    obtain ⟨rfl, rfl, rfl⟩ := Replays.ret_inv last
    rw [List.append_nil, List.append_nil]
    unfold statusTransaction at body
    split at body
    next fault =>
      rcases transitionToFault_effect allowed vehicleId update.reason body with
        ⟨already, rfl, effect⟩ | ⟨present, other, rfl, effect⟩
      · rw [effect]
        exact .alreadyInFault fault already
      · rw [effect]
        exact .enteredFault fault present other
    next normal =>
      rcases setVehicleStatus_effect allowed vehicleId update.status body with
        ⟨absent, rfl, effect⟩ | ⟨present, rfl, effect⟩
      · rw [effect]
        exact .unmatched normal absent
      · rw [effect]
        exact .updated normal present
  | sweep now =>
    obtain ⟨n, as, ws₁, _, ws₂, body, last, rfl, rfl⟩ := Replays.bind_inv replays
    obtain ⟨rfl, rfl, rfl⟩ := Replays.ret_inv last
    obtain ⟨rows, effect⟩ := detectCommsLoss_effect allowed now body
    rw [List.append_nil, List.append_nil, effect]
    exact .swept rows

/-- An event persisted alone is judged against the current row of its vehicle. -/
theorem persistTelemetry_run (event : TelemetryEvent) {db db' : Db}
    (done : postgres.run (persistTelemetry event) db = .ok ((), db')) :
    ∃ anomalies,
      detectAnomalies event (db.vehicleCurrentState.get? event.vehicleId) = .ok anomalies ∧
      db' = ingest event anomalies db := by
  obtain ⟨answered, ws, replays, rfl⟩ := Replays.of_run done
  obtain ⟨prior, anomalies, rest, _, read, detected, effect⟩ :=
    persistTelemetry_effect (fun _ _ _ _ => Or.inl) event replays
  obtain ⟨rfl, _, _⟩ := Stmt.execute_selectPrior (Stmt.exec_ok read).2
  exact ⟨anomalies, detected, effect⟩

/-- A call that returns when run alone had the effect it has on the state it ran on. -/
theorem run_effect (call : Call) {db db' : Db} {reply : Reply}
    (done : postgres.run (transaction call) db = .ok (reply, db')) :
    ∃ answered, Effect postgres.Answers call answered reply db db' := by
  obtain ⟨answered, ws, replays, rfl⟩ := Replays.of_run done
  exact ⟨answered, transaction_effect (fun _ _ _ _ => Or.inl) call replays⟩

namespace Service

/-- What is known of a logged event: a returned call had its effect, a raised one none,
and everything else is a change the environment may make. -/
def Explained (env : (Key → Prop) → Db → Db → Prop) : Event → Prop
  | .returned call answered reply before after =>
    Effect (Stmt.lockPolicy.Allowed postgres) call answered reply before after
  | .raised _ _ _ => True
  | .outside before after => ∃ held, env held before after

theorem agree_closed {ks : List Key} {held : Key → Prop} {db db' : Db}
    (allowed : closed held db db') (_ : ∀ k ∈ ks, held k) : Agree ks db db' :=
  allowed.elim

/-- A call committed in any interleaving had the effect it has on the state it committed
in, with a prior reading that may be older. -/
theorem ReachableWith.explained {env : (Key → Prop) → Db → Db → Prop}
    (outside : ∀ {ks held db db'}, env held db db' → (∀ k ∈ ks, held k) → Agree ks db db')
    {db : Db} {s : State} (reached : ReachableWith env db s) :
    ∀ e ∈ s.log, Explained env e := by
  intro e logged
  cases e with
  | returned call answered reply before after =>
    obtain ⟨ws, replays, rfl⟩ :=
      (discipline outside).returned transaction_disciplined reached logged
    exact transaction_effect (fun _ _ _ _ => id) call replays
  | raised call error state => trivial
  | outside before after => exact Foundations.Reachable.outside_logged reached logged

theorem committedEvents_returned (log : List Event) (event : TelemetryEvent)
    (answered : List (Sigma Stmt.Ret)) (reply : Reply) (before after : Db) :
    committedEvents (log ++ [.returned (.postTelemetry event) answered reply before after]) =
      committedEvents log ++ [event] := by
  simp [committedEvents, List.filterMap_append]

theorem committedEvents_other (log : List Event) (e : Event)
    (other : ∀ event answered reply before after,
      e ≠ .returned (.postTelemetry event) answered reply before after) :
    committedEvents (log ++ [e]) = committedEvents log := by
  unfold committedEvents
  rw [List.filterMap_append]
  cases e with
  | returned call answered reply before after =>
    cases call with
    | postTelemetry event => exact (other event answered reply before after rfl).elim
    | postVehicleStatus vehicleId update => simp
    | sweep now => simp
  | raised call error state => simp
  | outside before after => simp

/-- The rule for runs in which nothing but the calls writes. -/
theorem Reachable.log_invariant {P : List Event → Db → Prop} {db : Db} {s : State}
    (reached : Reachable db s) (nil : P [] db)
    (raised : ∀ log call error db, P log db → P (log ++ [.raised call error db]) db)
    (returned : ∀ log call answered reply before after,
      Effect (Stmt.lockPolicy.Allowed postgres) call answered reply before after →
      P log before → P (log ++ [.returned call answered reply before after]) after) :
    P s.log s.db := by
  apply Chain.invariant P (Explained closed) (Foundations.Reachable.chain reached)
    (ReachableWith.explained agree_closed reached) nil
  intro log e explained holds
  -- in a closed world only the calls are logged
  cases e with
  | returned call answered reply before after =>
    exact returned log call answered reply before after explained holds
  | raised call error state => exact raised log call error state holds
  | outside before after =>
    obtain ⟨_, impossible⟩ := explained
    exact impossible.elim

end Service

end FleetTelemetry
