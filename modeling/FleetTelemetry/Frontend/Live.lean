import FleetTelemetry.Dashboard.Convergence
import FleetTelemetry.Foundations.Journal
import FleetTelemetry.Frontend.WireToScreen
import FleetTelemetry.Service.Independence

/-!
# The page shows the database

The whole system once: any interleaving of the write operations, the journal of its
commits, consumers that rewind but never skip, and a page seeded from any prefix of the
journal. When the stream has been drained the page shows what is committed.
-/

namespace FleetTelemetry.Frontend

open Foundations
open Cdc (Numerals Message PgMessage)
open Dashboard (App Vehicle)
open Service (State Session ReachableWith assignsMission)

section Writes

/-- A statement sends the battery level of a validated event. -/
def ValidStmt : Stmt → Prop
  | .upsertCurrent _ row => BatteryBounds row.batteryPct
  | _ => True

theorem persistTelemetry_valid (event : TelemetryEvent) :
    (persistTelemetry event).All ValidStmt := by
  rw [persistTelemetry_eq]
  refine .exec trivial fun prior => ?_
  split
  · exact .raise _
  · refine .exec trivial fun _ => .exec event.batteryPct_range fun _ => ?_
    split
    · exact .exec trivial fun _ => insertAnomalies_all event (fun _ => trivial) _
    · exact insertAnomalies_all event (fun _ => trivial) _

theorem statusTransaction_valid (vehicleId : String) (update : VehicleStatusUpdate) :
    (statusTransaction vehicleId update).All ValidStmt := by
  refine Txn.All.mono (statusTransaction_writes vehicleId update) fun q other => ?_
  cases q with
  | upsertCurrent v row => cases other
  | selectPrior | insertRaw | incrementZone | insertAnomaly | insertCommsLoss | lockVehicle
  | cancelActiveMission | insertMaintenance | setVehicleFault | setVehicleStatus => trivial

theorem transaction_valid (call : Call) : (transaction call).All ValidStmt := by
  cases call with
  | postTelemetry event => exact (persistTelemetry_valid event).bind fun _ => .ret _
  | postVehicleStatus vehicleId update =>
    exact (statusTransaction_valid vehicleId update).bind fun _ => .ret _
  | sweep now => exact .exec trivial fun _ => .ret _

/-- Every count is one of its column's type. -/
def Ranged (db : Db) : Prop :=
  ∀ z n, db.zoneCounts.get? z = some n → -maxInteger - 1 ≤ n ∧ n ≤ maxInteger

theorem ranged_writeAll {ws : List Write} (valid : ∀ w ∈ ws, Valid w) {db : Db}
    (ranged : Ranged db) : Ranged (postgres.writeAll ws db) := by
  induction ws generalizing db with
  | nil => exact ranged
  | cons w ws ih =>
    rw [List.forall_mem_cons] at valid
    refine ih valid.2 ?_
    -- only a write of a counter can leave the range, and it carries its own bound
    cases w with
    | putZone zone count =>
      intro z n found
      rw [show postgres.write db (.putZone zone count) =
        { db with zoneCounts := db.zoneCounts.set zone count } from rfl, OrdMap.get?_set] at found
      split at found
      · cases found
        exact valid.1
      · exact ranged z n found
    | putCurrent | appendAnomaly | appendRaw | putVehicle | putMission | appendMaintenance =>
      exact ranged

theorem valid_exec {q : Stmt} {db : Db} {r : q.Ret} {ws : List Write} (valid : ValidStmt q)
    (ranged : Ranged db) (done : q.exec db = .ok (r, ws)) : ∀ w ∈ ws, Valid w := by
  intro w member
  have shape := Stmt.execute_writes (Stmt.exec_ok done).2 w member
  cases w with
  | putCurrent v row =>
    rw [shape] at valid
    exact valid
  | putZone z n =>
    obtain ⟨_, _, _, m, found, rfl, fits⟩ := shape
    -- the column's type bounds the count from above, the counts before from below
    have before := ranged z m found
    exact ⟨by omega, fits⟩
  | appendAnomaly | appendRaw | putVehicle | putMission | appendMaintenance => trivial

end Writes

section Runs

/-- An open transaction has written valid values and sends no others. -/
structure Careful (o : Session) : Prop where
  rest : o.rest.All ValidStmt
  pending : ∀ w ∈ o.pending, Valid w

theorem invariants :
    Invariants postgres transaction assignsMission Ranged fun _ o => Careful o where
  fresh _ c _ := ⟨transaction_valid c, fun _ member => absurd member List.not_mem_nil⟩
  own db o q next r ws ranged careful point done := by
    have rest := careful.rest
    rw [point] at rest
    cases rest with
    | exec here later =>
      -- what the session has pending, and what the statement adds to it
      refine ⟨later r, fun w member => ?_⟩
      rcases List.mem_append.mp member with earlier | new
      · exact careful.pending w earlier
      · exact valid_exec here (ranged_writeAll careful.pending ranged) done w new
  committed _ _ _ ranged careful _ := ranged_writeAll careful.pending ranged
  frame _ _ _ _ _ careful _ _ _ := careful
  outside _ _ _ ranged allowed := by
    obtain ⟨id, m, _, _, _, rfl, _⟩ := allowed
    exact ranged
  frame_outside _ _ _ _ _ careful _ _ := careful

/-- The watched rows are those that the journal settles on top of the first ones. -/
structure Settles (db : Db) (ws : List Write) (db' : Db) : Prop where
  valid : ∀ w ∈ ws, Valid w
  current : ∀ v, db'.vehicleCurrentState.get? v = (db.after ws).vehicleCurrentState.get? v
  zone : ∀ z, db'.zoneCounts.get? z = (db.after ws).zoneCounts.get? z

theorem settles_commit {db db' : Db} {ws : List Write} {o : Session} (settles : Settles db ws db')
    (careful : Careful o) : Settles db (ws ++ o.pending) (postgres.view o db') where
  valid := List.forall_mem_append.mpr ⟨settles.valid, careful.pending⟩
  current v := by
    have view : postgres.view o db' = db'.after o.pending := rfl
    rw [view, current_after, settles.current, current_after, current_after, settled_append]
  zone z := by
    have view : postgres.view o db' = db'.after o.pending := rfl
    rw [view, zone_after, settles.zone, zone_after, zone_after, settled_append]

theorem journal_settles {db : Db} (ranged : Ranged db) {s : State} {ws : List Write}
    (journal : Journal postgres transaction assignsMission db s ws) : Settles db ws s.db := by
  have start : Settles db [] db :=
    ⟨fun _ member => absurd member List.not_mem_nil, fun _ => rfl, fun _ => rfl⟩
  refine Journal.invariant invariants ranged start ?_ ?_ journal
  · intro ws db' o reply _ careful _ settles
    exact settles_commit settles careful
  · intro ws held db' db'' settles allowed
    obtain ⟨id, m, _, _, _, rfl, _⟩ := allowed
    exact ⟨settles.valid, settles.current, settles.zone⟩

end Runs

section Screen

variable {texts : Texts} {collate : String → String → Bool}

/-- Of every vehicle and zone of the snapshots the page shows what is committed. -/
structure Shows (first : Db) (app : App) (db : Db) : Prop where
  vehicle : ∀ v ∈ first.vehicleCurrentState.keys, ∃ row,
    db.vehicleCurrentState.get? v = some row ∧ app.vehicles.get? v = some (Vehicle.ofRow v row)
  zone : ∀ z ∈ first.zoneCounts.keys, ∃ count,
    db.zoneCounts.get? z = some count ∧ app.zones.get? z = some count

section Replay

variable {db db' : Db} {writes : List Write} {k : Nat} {segments : List Segment}

/-- Once the segments have been replayed to the end of the journal. -/
theorem shows_replayed (settles : Settles db writes db') (rewinds : Segment.Rewinds k segments)
    (seeded : k ≤ writes.length) (ends : ∀ g ∈ segments, g.stop ≤ writes.length)
    (finished : Segment.finish k segments = writes.length) :
    Shows (db.after (writes.take k))
      ((segments.flatMap fun g => g.of writes).foldl (App.deliver texts)
        (App.seeded collate (db.after (writes.take k)))) db' where
  vehicle v stored := by
    obtain ⟨row, committed, shown⟩ := @Dashboard.vehicles_replayed texts collate db writes k _
      segments rewinds seeded ends finished v stored
    rw [List.take_length] at committed
    exact ⟨row, (settles.current v).trans committed, shown⟩
  zone z stored := by
    obtain ⟨count, committed, shown⟩ := @Dashboard.zones_replayed texts collate db writes k _
      segments rewinds seeded ends finished z stored
    rw [List.take_length] at committed
    exact ⟨count, (settles.zone z).trans committed, shown⟩

variable {num : Numerals} {floats : Floats} {limits : Limits} {sessions : List (List PgMessage)}

/-- The frames of the sessions take a page where the replay of their segments does. -/
theorem sessions_follow (settles : Settles db writes db')
    (legible : ∀ w ∈ writes, Legible num texts floats limits w)
    (streamed : List.Forall₂ (fun msgs (g : Segment) => Stream texts [] msgs (g.of writes)) sessions
      segments) :
    ∃ batches frames, List.Forall₂ (fun msgs batch => publishes num msgs = .ok batch) sessions
        batches ∧
      (∀ channel, List.Forall₂ (Published floats) batches.flatten channel →
        redisSubscriber floats limits channel = (frames, none)) ∧
      (∀ frame ∈ frames, (Browser.event floats frame).isSome = true) ∧
      ∀ app : App, frames.foldl (hear floats) app =
        (segments.flatMap fun g => g.of writes).foldl (App.deliver texts) app := by
  have logs : List.Forall₂ (Stream texts []) sessions (segments.map fun g => g.of writes) :=
    List.forall₂_map_right_iff.mpr streamed
  -- a segment is part of the journal, so what holds of every write holds in it
  have within : ∀ w ∈ (segments.map fun g => g.of writes).flatten, w ∈ writes := by
    intro w member
    rw [← List.flatMap_def] at member
    exact Dashboard.mem_segments member
  rw [List.flatMap_def]
  exact frames_follow logs (fun w member => settles.valid w (within w member))
    (fun w member => legible w (within w member))

end Replay

/-- Whatever interleaving of calls is committed, whatever sessions of the consumer stream its
journal, rewinding but not skipping, and whichever prefix of it the page was seeded from: the
stream goes through every stage, and at its end the page shows what is committed. -/
theorem page_showsCommitted (num : Numerals) (texts : Texts) (floats : Floats) (limits : Limits)
    (collate : String → String → Bool) {C : Type} [DecidableEq C] (db : Db) (ranged : Ranged db)
    (s : State) (writes : List Write)
    (journal : Journal postgres transaction assignsMission db s writes)
    (legible : ∀ w ∈ writes, Legible num texts floats limits w) (k : Nat)
    (segments : List Segment) (rewinds : Segment.Rewinds k segments) (seeded : k ≤ writes.length)
    (ends : ∀ g ∈ segments, g.stop ≤ writes.length)
    (finished : Segment.finish k segments = writes.length) (sessions : List (List PgMessage))
    (streamed : List.Forall₂ (fun msgs (g : Segment) => Stream texts [] msgs (g.of writes)) sessions
      segments) :
    ∃ batches, List.Forall₂ (fun msgs batch => publishes num msgs = .ok batch) sessions batches ∧
      ∀ channel, List.Forall₂ (Published floats) batches.flatten channel →
        ∃ broadcasts, redisSubscriber floats limits channel = (broadcasts, none) ∧
          ∀ (c : C) (r r' : Registry C (List Char)) (actions : List (Action C (List Char))),
            Connected c broadcasts r actions r' →
            ∃ frames, r'.received c = r.received c ++ frames ∧
              let first := db.after (writes.take k)
              Shows first (frames.foldl (hear floats) (App.seeded collate first)) s.db := by
  have settles := journal_settles ranged journal
  obtain ⟨batches, frames, published, subscribed, _, follows⟩ :=
    sessions_follow settles legible streamed
  refine ⟨batches, published, fun channel carried => ⟨frames, subscribed channel carried, ?_⟩⟩
  intro c r r' actions connected
  refine ⟨frames, connected.received, ?_⟩
  intro first
  -- what is heard are the replayed events, whatever their text
  rw [follows]
  exact shows_replayed settles rewinds seeded ends finished

end Screen

section Entry

/-- A vehicle at 95 percent enters an aisle. -/
def chargedEntry : TelemetryEvent :=
  { vehicleId := "agv-1"
    status := .moving
    batteryPct := .finite 95
    recordedAt := .aware 0
    zoneEntered := some "aisle_a"
    vehicleId_length := agv1_length
    batteryPct_range := by decide +kernel
    speedMps_range := speedMps_standing }

def entryWrites : List Write :=
  [.appendRaw chargedEntry.rawEvent, .putCurrent "agv-1" chargedEntry.currentState,
    .putZone "aisle_a" 1]

/-- The transaction that is about to commit the entry. -/
def entryPending (s : State) : Bool :=
  s.log.isEmpty && match s.sessions 0 with
    | some o => decide (o.pending = entryWrites) && match o.rest with
      | .ret _ => true
      | .raise _ | .exec _ _ => false
    | none => false

theorem entry_journaled :
    ∃ s, Journal postgres transaction assignsMission Db.seeded s entryWrites := by
  obtain ⟨s, reached, pending⟩ := Service.exists_reachable assignsMission [0] Db.seeded
    [.begin 0 (.postTelemetry chargedEntry), .advance 0, .advance 0, .advance 0, .advance 0]
    entryPending (by decide +kernel)
  obtain ⟨ws, journal⟩ := Journal.exists_of_reachable reached
  simp only [entryPending, Bool.and_eq_true, List.isEmpty_iff] at pending
  obtain ⟨unlogged, open_⟩ := pending
  obtain rfl := journal.nil_of_unlogged unlogged
  split at open_
  next o running =>
    rw [Bool.and_eq_true, decide_eq_true_eq] at open_
    obtain ⟨writes, last⟩ := open_
    split at last
    next reply point =>
      -- the call is at its end with the two writes pending, so it can commit
      have committed := Journal.commit 0 journal running point
      rw [List.nil_append, writes] at committed
      exact ⟨_, committed⟩
    · cases last
    · cases last
  · cases open_

theorem inRange_textType : Wire.InRange 4 25 := by decide

def column (name : String) (clean : 0 ∉ Wire.utf8 name) : Cdc.Column :=
  ⟨0, ⟨name, clean⟩, ⟨25, inRange_textType⟩, ⟨-1, Cdc.inRange_noModifier⟩⟩

/-- The table as migrations 0002 and 0005 leave it. -/
def currentStateRelation : Cdc.Relation where
  oid := ⟨16390, by decide⟩
  namespaceName := ⟨"public", Cdc.clean_public⟩
  name := ⟨"vehicle_current_state", by decide⟩
  replicaIdentity := 102
  columns := [column "vehicle_id" (by decide), column "status" (by decide),
    column "battery_pct" (by decide), column "recorded_at" (by decide),
    column "updated_at" (by decide), column "speed_mps" (by decide), column "pos_x" (by decide),
    column "pos_y" (by decide)]
  columns_fit := by decide

def entryTexts : Texts where
  details := ⟨fun _ => "", fun _ => "", fun _ => ""⟩
  float x := if x = .finite 95 then "95" else "0"
  int n := if n = 1 then "1" else "0"
  timestamp _ := "1970-01-01 00:00:00+00"
  isoformat _ := "1970-01-01T00:00:00+00:00"

def entryNumerals : Numerals where
  float text := if text = "95" then .ok (.finite 95) else .error .valueError
  int text := if text = "1" then .ok 1 else .error .valueError

def currentStateTuple : Cdc.Tuple where
  data := [.text "agv-1", .text "moving", .text "95", .text "1970-01-01 00:00:00+00",
    .text "1970-01-01 00:00:01+00", .text "0", .null, .null]
  data_fit := by decide
  texts_fit := by decide

def currentStateChange : Cdc.Row where
  message := .insert currentStateRelation.oid currentStateTuple
  table := currentStateRelation
  old := none
  new := currentStateTuple
  shape := rfl
  new_fits := Nat.le_refl _
  old_fits := by rintro t ⟨⟩

def zoneCountTuple : Cdc.Tuple where
  data := [.text "aisle_a", .text "1"]
  data_fit := by decide
  texts_fit := by decide

theorem zoneCounts_noOldTuple : ∀ t : Cdc.Tuple, (none : Option Cdc.Tuple) = some t →
    t.data.length ≤ Cdc.zoneCountsRelation.columns.length := by
  rintro t ⟨⟩

/-- An update without its old row. -/
def zoneCountChange : Cdc.Row where
  message := .update Cdc.zoneCountsRelation.oid none zoneCountTuple
  table := Cdc.zoneCountsRelation
  old := none
  new := zoneCountTuple
  shape := rfl
  new_fits := Nat.le_refl _
  old_fits := zoneCounts_noOldTuple

theorem carries_currentState (sent : List PgMessage)
    (described : Cdc.latestRelation sent currentStateRelation.oid.val =
      some currentStateRelation) :
    Carries entryTexts sent currentStateChange
      (.putCurrent "agv-1" chargedEntry.currentState) where
  described := described
  distinct := by decide
  complete := rfl
  row := ⟨_, rfl, by decide +kernel⟩

theorem carries_zoneCount (sent : List PgMessage)
    (described : Cdc.latestRelation sent Cdc.zoneCountsRelation.oid.val =
      some Cdc.zoneCountsRelation) :
    Carries entryTexts sent zoneCountChange (.putZone "aisle_a" 1) where
  described := described
  distinct := by decide
  complete := rfl
  row := ⟨_, rfl, by decide +kernel⟩

/-- The first session ends before the zone, and the second one starts at the vehicle again. -/
def entrySessions : List (List PgMessage) :=
  [[.silent .begin [], .relation currentStateRelation, currentStateChange.message],
    [.silent .begin [], .relation currentStateRelation, currentStateChange.message,
      .relation Cdc.zoneCountsRelation, zoneCountChange.message, .silent .commit []]]

theorem entry_streamed : List.Forall₂
    (fun msgs (g : Segment) => Stream entryTexts [] msgs (g.of entryWrites)) entrySessions
    [⟨0, 2⟩, ⟨1, 3⟩] := by
  refine .cons ?_ (.cons ?_ .nil)
  · exact .unpublished rfl (.silent rfl (.silent rfl
      (.change (carries_currentState _ rfl) (.done _))))
  · exact .silent rfl (.silent rfl (.change (carries_currentState _ rfl) (.silent rfl
      (.change (carries_zoneCount _ rfl) (.silent rfl (.done _))))))

def unlimited : Limits := ⟨fun _ => false, fun _ => false⟩

theorem roomy_unlimited (row : Row) : row.Roomy chargedFloats unlimited :=
  ⟨fun _ => rfl, fun _ => rfl⟩

theorem entry_legible :
    ∀ w ∈ entryWrites, Legible entryNumerals entryTexts chargedFloats unlimited w := by
  have exact : chargedFloats.Exact 95 := by
    constructor <;> decide
  intro w member
  simp only [entryWrites, List.mem_cons, List.not_mem_nil, or_false] at member
  rcases member with rfl | rfl | rfl
  · exact ⟨trivial, by rintro _ ⟨⟩, fun _ _ => roomy_unlimited _⟩
  · refine ⟨by simp [Write.Printed, TelemetryEvent.currentState, chargedEntry, entryTexts,
      entryNumerals], ?_, fun _ _ => roomy_unlimited _⟩
    rintro _ ⟨rfl⟩
    exact exact
  · refine ⟨rfl, ?_, fun _ _ => roomy_unlimited _⟩
    rintro _ ⟨rfl⟩
    trivial

theorem ranged_seeded : Ranged Db.seeded := by
  have zero : ∀ entry ∈ Db.seeded.zoneCounts.entries, entry.2 = 0 := by decide +kernel
  intro z n found
  have same : n = 0 := zero _ (OrdMap.mem_of_get? _ _ _ found)
  rw [same]
  decide

theorem exists_channel (floats : Floats) (ms : List Message) :
    ∃ channel, List.Forall₂ (Published floats) ms channel := by
  induction ms with
  | nil => exact ⟨[], .nil⟩
  | cons m ms ih =>
    obtain ⟨channel, carried⟩ := ih
    exact ⟨_, .cons ⟨.empty, rfl⟩ carried⟩

/-- One client that each broadcast is sent to before the next. -/
def alone (received : List (List Char)) : Registry Nat (List Char) :=
  ⟨{0}, none, fun _ => received⟩

theorem exists_connected (broadcasts : List (List Char)) (r : Registry Nat (List Char))
    (idle : r.current = none) (registered : r.connections = {0}) :
    ∃ actions r', Connected 0 broadcasts r actions r' := by
  induction broadcasts generalizing r with
  | nil =>
    exact ⟨[], r, rfl, idle, idle, by simp [registered], List.not_mem_nil, List.not_mem_nil, rfl⟩
  | cons frame broadcasts ih =>
    obtain ⟨actions, r', rest⟩ := ih { r.deliver 0 frame with current := none } rfl
      (by simpa [Registry.deliver] using registered)
    -- each frame is a broadcast to the one client, which is sent it
    refine ⟨.broadcast frame [0] :: .sent 0 :: .ended :: actions, r', ?_⟩
    refine ⟨?_, idle, rest.ended, by simp [registered], ?_, ?_, ?_⟩
    · have first : Machine.run Registry.step r
          (.broadcast frame [0] :: .sent 0 :: .ended :: actions) =
            Machine.run Registry.step { r.deliver 0 frame with current := none } actions := by
        simp [Machine.run, Registry.step, Registry.deliver, idle, registered]
      exact first.trans rest.run
    · simpa using rest.stays
    · simpa using rest.sends
    · have heard : published (.broadcast frame [0] :: .sent 0 :: .ended :: actions) =
          frame :: published actions := rfl
      rw [heard, rest.broadcast]

/-- The database as the snapshots of the page have it: with the vehicle but not the zone. -/
def entrySeed : Db := Db.seeded.after (entryWrites.take 2)

/-- The vehicle is streamed twice, then the zone. -/
theorem page_showsCommitted_entry :
    ∃ s batches channel broadcasts actions r' frames,
      Journal postgres transaction assignsMission Db.seeded s entryWrites ∧
      List.Forall₂ (fun msgs batch => publishes entryNumerals msgs = .ok batch) entrySessions
        batches ∧
      List.Forall₂ (Published chargedFloats) batches.flatten channel ∧
      redisSubscriber chargedFloats unlimited channel = (broadcasts, none) ∧
      Connected 0 broadcasts (alone []) actions r' ∧ r'.received 0 = frames ∧
      let app := frames.foldl (hear chargedFloats) (App.seeded (fun _ _ => true) entrySeed)
      app.vehicles.get? "agv-1" = some ⟨"agv-1", "moving", .finite 95⟩ ∧
        app.zones.get? "aisle_a" = some 1 := by
  obtain ⟨s, journal⟩ := entry_journaled
  obtain ⟨batches, published, streams⟩ := page_showsCommitted (C := Nat) entryNumerals entryTexts
    chargedFloats unlimited (fun _ _ => true) Db.seeded ranged_seeded s entryWrites journal
    entry_legible 2 [⟨0, 2⟩, ⟨1, 3⟩] ⟨by decide, by decide, trivial⟩ (by decide) (by decide) rfl
    entrySessions entry_streamed
  obtain ⟨channel, carried⟩ := exists_channel chargedFloats batches.flatten
  obtain ⟨broadcasts, subscribed, broadcast⟩ := streams channel carried
  obtain ⟨actions, r', connected⟩ := exists_connected broadcasts (alone []) rfl rfl
  obtain ⟨frames, received, shows⟩ := broadcast 0 _ r' actions connected
  refine ⟨s, batches, channel, broadcasts, actions, r', frames, journal, published, carried,
    subscribed, connected, received, ?_⟩
  intro app
  -- the journal ends in the committed database, whose rows are evaluated here
  have settles := journal_settles ranged_seeded journal
  obtain ⟨row, stored, shown⟩ := shows.vehicle "agv-1" (by decide +kernel)
  obtain ⟨count, total, counted⟩ := shows.zone "aisle_a" (by decide +kernel)
  have moving : (Db.seeded.after entryWrites).vehicleCurrentState.get? "agv-1" =
      some chargedEntry.currentState := by decide +kernel
  have once : (Db.seeded.after entryWrites).zoneCounts.get? "aisle_a" = some 1 := by
    decide +kernel
  obtain rfl : row = chargedEntry.currentState :=
    Option.some.inj (stored.symm.trans ((settles.current "agv-1").trans moving))
  obtain rfl : count = 1 := Option.some.inj (total.symm.trans ((settles.zone "aisle_a").trans once))
  exact ⟨shown, counted⟩

end Entry

end FleetTelemetry.Frontend
