import FleetTelemetry.Dashboard.Snapshots

/-!
# Convergence under replay

The event source may start over from any earlier change. The stores then pass through
older rows, but each key ends on its last one.
-/

namespace FleetTelemetry.Dashboard

open Foundations
open Cdc (Numerals)

/-- The page once the event published for a write is received. -/
def App.receive (num : Numerals) (texts : Texts) (app : App) (w : Write) : App :=
  match (w.event num texts).bind parsePatch with
  | some event => app.onEvent event
  | none => app

/-- The vehicle and zone stores as they are seeded. -/
def App.seeded (collate : String → String → Bool) (db : Db) : App :=
  ⟨seedVehicles (currentVehicleStates collate db), .empty,
    seedZones (zoneEntryCounts db).entries⟩

variable {num : Numerals} {texts : Texts} {collate : String → String → Bool}

theorem foldl_receive (writes : List Write) (printed : ∀ w ∈ writes, w.Printed num texts)
    (app : App) :
    writes.foldl (App.receive num texts) app = writes.foldl (App.deliver texts) app := by
  induction writes generalizing app with
  | nil => rfl
  | cons w writes ih =>
    have first : app.receive num texts w = app.deliver texts w := by
      rw [App.receive, parsePatch_event (printed w List.mem_cons_self)]
      rfl
    rw [List.foldl_cons, List.foldl_cons, first,
      ih fun w member => printed w (List.mem_cons_of_mem _ member)]

theorem mem_segments {writes : List Write} {segments : List Segment} {w : Write}
    (member : w ∈ segments.flatMap fun s => s.of writes) : w ∈ writes := by
  obtain ⟨s, _, inside⟩ := List.mem_flatMap.mp member
  exact List.mem_of_mem_drop (List.mem_of_mem_take inside)

section Replay

variable {db : Db} {writes : List Write} {k n : Nat} {segments : List Segment}

theorem vehicles_replayed (rewinds : Segment.Rewinds k segments) (seeded : k ≤ n)
    (ends : ∀ s ∈ segments, s.stop ≤ n) (finished : Segment.finish k segments = n)
    (vehicleId : String)
    (stored : vehicleId ∈ (db.after (writes.take k)).vehicleCurrentState.keys) :
    ∃ row, (db.after (writes.take n)).vehicleCurrentState.get? vehicleId = some row ∧
      ((segments.flatMap fun s => s.of writes).foldl (App.deliver texts)
        (App.seeded collate (db.after (writes.take k)))).vehicles.get? vehicleId =
        some (Vehicle.ofRow vehicleId row) := by
  have known : vehicleId ∈ (App.seeded collate (db.after (writes.take k))).vehicles.keys :=
    (mem_seedVehicles collate _ vehicleId).mpr stored
  have delivered := vehicles_deliver texts (segments.flatMap fun s => s.of writes) _
    vehicleId known
  -- the seed is the row settled by the first `k` writes, and the replay settles the rest
  have seed : (App.seeded collate (db.after (writes.take k))).vehicles.get? vehicleId =
      settled (fun w => (w.current vehicleId).map (Vehicle.ofRow vehicleId)) (writes.take k)
        ((db.vehicleCurrentState.get? vehicleId).map (Vehicle.ofRow vehicleId)) := by
    rw [settled_map, ← current_after]
    exact get?_seedVehicles collate _ vehicleId
  have present := (OrdMap.mem_keys_iff _ _).mp known
  rw [seed] at present delivered
  obtain ⟨vehicle, final, replayed⟩ :=
    Segment.settled_replay_some writes _ k n segments rewinds seeded ends finished present
  rw [settled_map, ← current_after] at final
  obtain ⟨row, committed, rfl⟩ := Option.map_eq_some_iff.mp final
  exact ⟨row, committed, delivered.trans replayed⟩

theorem zones_replayed (rewinds : Segment.Rewinds k segments) (seeded : k ≤ n)
    (ends : ∀ s ∈ segments, s.stop ≤ n) (finished : Segment.finish k segments = n)
    (zoneId : String)
    (stored : zoneId ∈ (db.after (writes.take k)).zoneCounts.keys) :
    ∃ count, (db.after (writes.take n)).zoneCounts.get? zoneId = some count ∧
      ((segments.flatMap fun s => s.of writes).foldl (App.deliver texts)
        (App.seeded collate (db.after (writes.take k)))).zones.get? zoneId = some count := by
  have known : zoneId ∈ (App.seeded collate (db.after (writes.take k))).zones.keys :=
    (mem_seedZones _ zoneId).mpr stored
  -- what a patch does to a zone that is shown depends on that zone alone
  have delivered := zones_deliver texts (segments.flatMap fun s => s.of writes) _ zoneId known
  have seed : (App.seeded collate (db.after (writes.take k))).zones.get? zoneId =
      settled (Write.zone zoneId) (writes.take k) (db.zoneCounts.get? zoneId) := by
    rw [← zone_after]
    exact get?_seedZones _ zoneId
  have present := (OrdMap.mem_keys_iff _ _).mp known
  rw [seed] at present delivered
  -- the last change of the zone is in some segment, or else it was in the seed
  obtain ⟨count, final, replayed⟩ :=
    Segment.settled_replay_some writes _ k n segments rewinds seeded ends finished present
  rw [← zone_after] at final
  exact ⟨count, final, delivered.trans replayed⟩

end Replay

/-- Seeded after `k` changes and fed any segments that rewind but never skip, the stores
hold, for each row there was after those `k`, the one after `n` changes, where the last
segment ends. -/
theorem stores_converge (num : Numerals) (texts : Texts) (collate : String → String → Bool)
    (db : Db) (writes : List Write) (k n : Nat) (segments : List Segment)
    (printed : ∀ w ∈ writes, w.Printed num texts) (rewinds : Segment.Rewinds k segments)
    (seeded : k ≤ n) (ends : ∀ s ∈ segments, s.stop ≤ n)
    (finished : Segment.finish k segments = n) :
    let app := (segments.flatMap fun s => s.of writes).foldl (App.receive num texts)
      (App.seeded collate (db.after (writes.take k)))
    (∀ vehicleId ∈ (db.after (writes.take k)).vehicleCurrentState.keys, ∃ row,
      (db.after (writes.take n)).vehicleCurrentState.get? vehicleId = some row ∧
      app.vehicles.get? vehicleId = some (Vehicle.ofRow vehicleId row)) ∧
    ∀ zoneId ∈ (db.after (writes.take k)).zoneCounts.keys, ∃ count,
      (db.after (writes.take n)).zoneCounts.get? zoneId = some count ∧
      app.zones.get? zoneId = some count := by
  intro app
  -- on the wire and back every event is the one of its change
  have delivered : app = (segments.flatMap fun s => s.of writes).foldl (App.deliver texts)
      (App.seeded collate (db.after (writes.take k))) :=
    foldl_receive _ (fun w member => printed w (mem_segments member)) _
  rw [delivered]
  exact ⟨fun vehicleId stored => vehicles_replayed rewinds seeded ends finished vehicleId stored,
    fun zoneId stored => zones_replayed rewinds seeded ends finished zoneId stored⟩

def shortNumerals : Numerals where
  float text := if text = "79" then .ok (.finite 79) else
    if text = "80" then .ok (.finite 80) else .error .valueError
  int text := if text = "1" then .ok 1 else if text = "2" then .ok 2 else .error .valueError

def shortTexts : Texts where
  details := ⟨fun _ => "", fun _ => "", fun _ => ""⟩
  float x := if x = .finite 79 then "79" else "80"
  int n := if n = 1 then "1" else "2"
  timestamp _ := "2026-06-16 00:00:00+00"
  isoformat _ := "2026-06-16T00:00:00+00:00"

def chargingState (status : VehicleStatus) (batteryPct : ℚ) : CurrentState :=
  ⟨status, .finite batteryPct, .finite 0, none, none, 0⟩

/-- A vehicle and a zone, changed twice each. -/
def chargingWrites : List Write :=
  [.putCurrent "v1" (chargingState .charging 79), .putZone "charging_bay_1" 1,
    .putCurrent "v1" (chargingState .idle 80), .putZone "charging_bay_1" 2]

theorem chargingWrites_printed : ∀ w ∈ chargingWrites, w.Printed shortNumerals shortTexts := by
  have first : shortTexts.float (.finite 79) = "79" := by simp [shortTexts]
  have second : shortTexts.float (.finite 80) = "80" := by
    simp [shortTexts]
  intro w member
  simp only [chargingWrites, List.mem_cons, List.not_mem_nil, or_false] at member
  rcases member with rfl | rfl | rfl | rfl
  · simp [Write.Printed, chargingState, first, shortNumerals]
  · rfl
  · simp [Write.Printed, chargingState, second, shortNumerals]
  · rfl

/-- Seeded after two changes, then fed the first three again and the last two again. -/
theorem stores_converge_rewound :
    let app := (([⟨0, 3⟩, ⟨2, 4⟩] : List Segment).flatMap fun s => s.of chargingWrites).foldl
      (App.receive shortNumerals shortTexts)
      (App.seeded (fun _ _ => true) (Db.seeded.after (chargingWrites.take 2)))
    app.vehicles.get? "v1" = some ⟨"v1", "idle", .finite 80⟩ ∧
      app.zones.get? "charging_bay_1" = some 2 := by
  intro app
  obtain ⟨vehicles, zones⟩ := stores_converge shortNumerals shortTexts (fun _ _ => true) Db.seeded
    chargingWrites 2 4 [⟨0, 3⟩, ⟨2, 4⟩] chargingWrites_printed ⟨by decide, by decide, trivial⟩
    (by decide) (by simp) rfl
  obtain ⟨row, last, shown⟩ := vehicles "v1" (by decide +kernel)
  obtain ⟨count, total, counted⟩ := zones "charging_bay_1" (by decide +kernel)
  have idle : (Db.seeded.after (chargingWrites.take 4)).vehicleCurrentState.get? "v1" =
      some (chargingState .idle 80) := by decide +kernel
  have twice : (Db.seeded.after (chargingWrites.take 4)).zoneCounts.get? "charging_bay_1" =
      some 2 := by decide +kernel
  obtain rfl : row = chargingState .idle 80 := Option.some.inj (last.symm.trans idle)
  obtain rfl : count = 2 := Option.some.inj (total.symm.trans twice)
  exact ⟨shown, counted⟩

end FleetTelemetry.Dashboard
