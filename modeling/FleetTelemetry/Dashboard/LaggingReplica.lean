import FleetTelemetry.Dashboard.SnapshotThenStream
import FleetTelemetry.Foundations.Restream

/-!
# Loading from a lagging replica

The three reads go to the replica, which has replayed some prefix of the commits, and the
patches come from the primary by a consumer that may start again from an earlier position.
A resolved fetch remembers how many commits its snapshot has, and the lowest position that
patches have come from since.
-/

namespace FleetTelemetry.Dashboard

open Foundations

namespace Fetch

variable {A : Type}

/-- The stream goes back to a position. -/
def setBack (position : Nat) : Fetch A → Fetch A
  | .resolved snapshot seen low => .resolved snapshot seen (min low position)
  | .read snapshot seen => .read snapshot seen
  | .pending => .pending

end Fetch

structure Lagged where
  committed : List Write
  replayed : Nat
  position : Nat
  vehicles : Fetch (List VehicleSnapshotRow)
  anomalies : Fetch (List Anomaly)
  zones : Fetch ZoneCountsSnapshot
  app : App

namespace Lagged

def mounted : Lagged := ⟨[], 0, 0, .pending, .pending, .pending, .initial⟩

/-- What the replica answers from. -/
def replica (db : Db) (s : Lagged) : Db := db.after (s.committed.take s.replayed)

inductive Step (texts : Texts) (collate : String → String → Bool) (db : Db) :
    Lagged → Lagged → Prop
  | commit (s : Lagged) (writes : List Write) :
      Step texts collate db s { s with committed := s.committed ++ writes }
  | replay (s : Lagged) (behind : s.replayed < s.committed.length) :
      Step texts collate db s { s with replayed := s.replayed + 1 }
  | readVehicles (s : Lagged) (pending : s.vehicles = .pending) :
      Step texts collate db s { s with
        vehicles := .read (currentVehicleStates collate (s.replica db)) s.replayed }
  | readAnomalies (s : Lagged) (rows : List Anomaly) (pending : s.anomalies = .pending)
      (answer : LatestAnomalies (s.replica db) rows) :
      Step texts collate db s { s with anomalies := .read rows s.replayed }
  | readZones (s : Lagged) (pending : s.zones = .pending) :
      Step texts collate db s { s with
        zones := .read (zoneEntryCounts (s.replica db)).entries s.replayed }
  | resolveVehicles (s : Lagged) (snapshot : List VehicleSnapshotRow) (seen : Nat)
      (answered : s.vehicles = .read snapshot seen) :
      Step texts collate db s { s with
        vehicles := .resolved snapshot seen s.position
        app := { s.app with vehicles := seedVehicles snapshot } }
  | resolveAnomalies (s : Lagged) (rows : List Anomaly) (seen : Nat)
      (answered : s.anomalies = .read rows seen) :
      Step texts collate db s { s with
        anomalies := .resolved rows seen s.position
        app := { s.app with anomalies := seedAnomalies (rows.map (anomalySnapshotRow texts)) } }
  | resolveZones (s : Lagged) (snapshot : ZoneCountsSnapshot) (seen : Nat)
      (answered : s.zones = .read snapshot seen) :
      Step texts collate db s { s with
        zones := .resolved snapshot seen s.position
        app := { s.app with zones := seedZones snapshot } }
  | deliver (s : Lagged) (w : Write) (next : s.committed[s.position]? = some w) :
      Step texts collate db s { s with
        position := s.position + 1
        app := s.app.deliver texts w }
  -- the consumer streams again from the position its slot has confirmed
  | restart (s : Lagged) (earlier : Nat) (back : earlier ≤ s.position) :
      Step texts collate db s { s with
        position := earlier
        vehicles := s.vehicles.setBack earlier
        anomalies := s.anomalies.setBack earlier
        zones := s.zones.setBack earlier }

def Reachable (texts : Texts) (collate : String → String → Bool) (db : Db) (s : Lagged) : Prop :=
  Relation.ReflTransGen (Step texts collate db) mounted s

end Lagged

/-- The last write of the row came between what a snapshot has and the first patch after it. -/
def missed {V : Type} (g : Write → Option V) (committed : List Write) (seen low : Nat) : Bool :=
  ((committed.take low).drop seen).any (fun w => (g w).isSome) &&
    !(committed.drop low).any fun w => (g w).isSome

section Missed

variable {V : Type} {g : Write → Option V} {committed : List Write} {seen low : Nat}

theorem untouched_of_not_any {writes : List Write}
    (none_writes : writes.any (fun w => (g w).isSome) = false) : ∀ w ∈ writes, g w = none := by
  intro w member
  have here := List.any_eq_false.mp none_writes w member
  simpa using here

/-- A snapshot and the patches after it give the value of the snapshot if they have missed the
last write, and else the last value. -/
theorem settled_missed (v : Option V) :
    settled g (committed.drop low) (settled g (committed.take seen) v) =
      settled g (if missed g committed seen low then committed.take seen else committed) v := by
  cases later : (committed.drop low).any fun w => (g w).isSome with
  | true =>
    -- a patch after the snapshot settles the row
    have whole : missed g committed seen low = false := by simp [missed, later]
    rw [whole]
    obtain ⟨w, member, wrote⟩ := List.any_eq_true.mp later
    rcases settled_cases g (committed.drop low) with untouched | settles
    · rw [untouched w member] at wrote
      cases wrote
    · rw [settles _ (settled g (committed.take low) v), ← settled_append, List.take_append_drop]
      rfl
  | false =>
    have untouched := untouched_of_not_any later
    cases between : ((committed.take low).drop seen).any fun w => (g w).isSome with
    | true =>
      have lost : missed g committed seen low = true := by simp [missed, later, between]
      rw [lost, settled_untouched untouched]
      rfl
    | false =>
      have whole : missed g committed seen low = false := by simp [missed, between]
      rw [whole]
      exact settled_resume committed v seen low (untouched_of_not_any between)

end Missed

section Follows

variable {A V : Type} {answers : A → List Write → Prop} {seeded : A → String → Option V}
  {known : A → String → Prop} {g : String → Write → Option V} {committed : List Write}
  {position : Nat} {fetch : Fetch A} {shown : String → Option V}

/-- A fetch and the store it seeds: what it read is the answer of a prefix of the commits, and
each row it knows follows the patches since it has resolved. -/
structure Follows (answers : A → List Write → Prop) (seeded : A → String → Option V)
    (known : A → String → Prop) (g : String → Write → Option V) (committed : List Write)
    (position : Nat) (fetch : Fetch A) (shown : String → Option V) : Prop where
  read : ∀ a seen, fetch = .read a seen → seen ≤ committed.length ∧
    answers a (committed.take seen)
  resolved : ∀ a seen low, fetch = .resolved a seen low →
    (seen ≤ committed.length ∧ answers a (committed.take seen)) ∧
      ∀ v, known a v → Restreamed (g v) (seeded a v) committed low position (shown v)

namespace Follows

theorem pending : Follows answers seeded known g committed position .pending shown :=
  ⟨nofun, nofun⟩

theorem commit (f : Follows answers seeded known g committed position fetch shown)
    (writes : List Write) :
    Follows answers seeded known g (committed ++ writes) position fetch shown := by
  have longer : ∀ {a seen}, (seen ≤ committed.length ∧ answers a (committed.take seen)) →
      seen ≤ (committed ++ writes).length ∧ answers a ((committed ++ writes).take seen) := by
    rintro a seen ⟨inside, answer⟩
    rw [List.take_append_of_le_length inside, List.length_append]
    exact ⟨by omega, answer⟩
  refine ⟨fun a seen read => longer (f.read a seen read), fun a seen low resolved => ?_⟩
  obtain ⟨answer, rows⟩ := f.resolved a seen low resolved
  exact ⟨longer answer, fun v present => (rows v present).append writes⟩

theorem answer {a : A} {seen : Nat} (inside : seen ≤ committed.length)
    (answer : answers a (committed.take seen)) :
    Follows answers seeded known g committed position (.read a seen) shown := by
  refine ⟨?_, nofun⟩
  rintro _ _ ⟨rfl⟩
  exact ⟨inside, answer⟩

theorem resolve (f : Follows answers seeded known g committed position fetch shown) {a : A}
    {seen : Nat} (read : fetch = .read a seen) (inside : position ≤ committed.length)
    {seeds : String → Option V} (same : ∀ v, seeds v = seeded a v) :
    Follows answers seeded known g committed position (.resolved a seen position) seeds := by
  refine ⟨nofun, ?_⟩
  rintro _ _ _ ⟨rfl⟩
  refine ⟨f.read a seen read, fun v _ => ?_⟩
  rw [same v]
  exact .begin inside

theorem deliver (f : Follows answers seeded known g committed position fetch shown) {w : Write}
    (next : committed[position]? = some w) {after : String → Option V}
    (written : ∀ a seen low, fetch = .resolved a seen low → ∀ v, known a v →
      after v = (g v w).or (shown v)) :
    Follows answers seeded known g committed (position + 1) fetch after := by
  refine ⟨f.read, fun a seen low resolved => ?_⟩
  obtain ⟨answer, rows⟩ := f.resolved a seen low resolved
  refine ⟨answer, fun v present => ?_⟩
  rw [written a seen low resolved v present]
  exact (rows v present).deliver next

theorem restart (f : Follows answers seeded known g committed position fetch shown) {earlier : Nat}
    (back : earlier ≤ position) :
    Follows answers seeded known g committed earlier (fetch.setBack earlier) shown := by
  cases fetch with
  | pending => exact pending
  | read a seen => exact ⟨f.read, nofun⟩
  | resolved a seen low =>
    refine ⟨nofun, ?_⟩
    rintro _ _ _ ⟨rfl⟩
    obtain ⟨answer, rows⟩ := f.resolved a seen low rfl
    exact ⟨answer, fun v present => (rows v present).rewind back⟩

end Follows

end Follows

/-- The row of a vehicle that a write puts into the store. -/
def vehicleOf (vehicleId : String) (w : Write) : Option Vehicle :=
  (w.current vehicleId).map (Vehicle.ofRow vehicleId)

def anomalyOf (texts : Texts) (vehicleId : String) (w : Write) : Option AnomalyDetectedPayload :=
  (w.patch texts).bind (PatchEvent.anomaly vehicleId)

theorem anomalies_deliver (texts : Texts) (app : App) (w : Write) (vehicleId : String) :
    (app.deliver texts w).anomalies.get? vehicleId =
      (anomalyOf texts vehicleId w).or (app.anomalies.get? vehicleId) := by
  unfold App.deliver anomalyOf
  split
  next event patched => rw [patched, Option.bind_some, anomalies_onEvent]
  next unpatched =>
    rw [unpatched]
    rfl

namespace Lagged

variable {texts : Texts} {collate : String → String → Bool} {db : Db} {s s' : Lagged}

/-- What every step preserves. -/
structure Sound (texts : Texts) (collate : String → String → Bool) (db : Db) (s : Lagged) :
    Prop where
  replayed : s.replayed ≤ s.committed.length
  position : s.position ≤ s.committed.length
  vehicles : Follows (fun rows seen => rows = currentVehicleStates collate (db.after seen))
    (fun rows v => (seedVehicles rows).get? v) (fun rows v => v ∈ (seedVehicles rows).keys)
    vehicleOf s.committed s.position s.vehicles s.app.vehicles.get?
  zones : Follows (fun counts seen => counts = (zoneEntryCounts (db.after seen)).entries)
    (fun counts z => (seedZones counts).get? z) (fun counts z => z ∈ (seedZones counts).keys)
    Write.zone s.committed s.position s.zones s.app.zones.get?
  anomalies : Follows (fun rows seen => LatestAnomalies (db.after seen) rows)
    (fun rows v => (seedAnomalies (rows.map (anomalySnapshotRow texts))).get? v)
    (fun _ _ => True) (anomalyOf texts) s.committed s.position s.anomalies s.app.anomalies.get?

theorem sound_mounted : mounted.Sound texts collate db :=
  ⟨Nat.le_refl 0, Nat.le_refl 0, .pending, .pending, .pending⟩

/-- A row that a snapshot has seeded stays. -/
theorem known_of_restreamed {V : Type} {g : Write → Option V} {seeded shown : OrdMap String V}
    {committed : List Write} {low position : Nat} {key : String} (known : key ∈ seeded.keys)
    (r : Restreamed g (seeded.get? key) committed low position (shown.get? key)) :
    key ∈ shown.keys := by
  rw [OrdMap.mem_keys_iff] at known ⊢
  obtain ⟨_, _, _, _, _, _, value, _⟩ := r.pass
  rw [value]
  exact settled_isSome _ known

theorem Sound.step (sound : s.Sound texts collate db) (step : Step texts collate db s s') :
    s'.Sound texts collate db := by
  cases step with
  -- a longer history keeps every position in range
  | commit writes =>
    have longer : s.committed.length ≤ (s.committed ++ writes).length := by simp
    exact ⟨Nat.le_trans sound.replayed longer, Nat.le_trans sound.position longer,
      sound.vehicles.commit writes, sound.zones.commit writes, sound.anomalies.commit writes⟩
  | replay behind =>
    exact ⟨behind, sound.position, sound.vehicles, sound.zones, sound.anomalies⟩
  -- a read sees the replica as it is now, which is at most what is committed
  | readVehicles pending => exact { sound with vehicles := .answer sound.replayed rfl }
  | readAnomalies rows pending answer =>
    exact { sound with anomalies := .answer sound.replayed answer }
  | readZones pending => exact { sound with zones := .answer sound.replayed rfl }
  | resolveVehicles snapshot seen answered =>
    exact { sound with
      vehicles := sound.vehicles.resolve answered sound.position fun _ => rfl }
  | resolveAnomalies rows seen answered =>
    exact { sound with
      anomalies := sound.anomalies.resolve answered sound.position fun _ => rfl }
  | resolveZones snapshot seen answered =>
    exact { sound with zones := sound.zones.resolve answered sound.position fun _ => rfl }
  -- a patch is the next committed write, so each store moves on by that write
  | deliver w next =>
    refine ⟨sound.replayed, (List.getElem?_eq_some_iff.mp next).1, ?_, ?_, ?_⟩
    · refine sound.vehicles.deliver next fun a seen low resolved v known => ?_
      have follows := (sound.vehicles.resolved a seen low resolved).2 v known
      exact vehicle_deliver texts (known_of_restreamed known follows) w
    · refine sound.zones.deliver next fun a seen low resolved z known => ?_
      have follows := (sound.zones.resolved a seen low resolved).2 z known
      exact zone_deliver texts (known_of_restreamed known follows) w
    · exact sound.anomalies.deliver next fun _ _ _ _ v _ => anomalies_deliver texts s.app w v
  -- the stream goes back, and what was shown counts from the lower position
  | restart earlier back =>
    exact ⟨sound.replayed, Nat.le_trans back sound.position, sound.vehicles.restart back,
      sound.zones.restart back, sound.anomalies.restart back⟩

theorem Reachable.sound (reachable : Reachable texts collate db s) : s.Sound texts collate db := by
  induction reachable with
  | refl => exact sound_mounted
  | tail _ step ih => exact ih.step step

/-- Once every patch has been delivered, each row of a snapshot shows what the snapshot had of
it if its last write came between what the snapshot has and the lowest position that patches
have come from since, and else the committed row; and each vehicle shows its last anomaly
patch from that position on, or its anomaly of the snapshot. -/
theorem shown_exact (texts : Texts) (collate : String → String → Bool) (db : Db) (s : Lagged)
    (reachable : Reachable texts collate db s) (drained : s.position = s.committed.length) :
    (∀ snapshot seen low, s.vehicles = .resolved snapshot seen low → ∀ row ∈ snapshot,
      s.app.vehicles.get? row.vehicleId =
        ((db.after (if missed (vehicleOf row.vehicleId) s.committed seen low
          then s.committed.take seen else s.committed)).vehicleCurrentState.get?
            row.vehicleId).map (Vehicle.ofRow row.vehicleId)) ∧
    (∀ counts seen low, s.zones = .resolved counts seen low → ∀ entry ∈ counts,
      s.app.zones.get? entry.1 =
        (db.after (if missed (Write.zone entry.1) s.committed seen low
          then s.committed.take seen else s.committed)).zoneCounts.get? entry.1) ∧
    ∀ rows seen low, s.anomalies = .resolved rows seen low →
      LatestAnomalies (db.after (s.committed.take seen)) rows ∧ ∀ v,
        s.app.anomalies.get? v = settled (anomalyOf texts v) (s.committed.drop low)
          ((seedAnomalies (rows.map (anomalySnapshotRow texts))).get? v) := by
  have sound := reachable.sound
  refine ⟨?_, ?_, ?_⟩
  -- drained, the invariant gives the value; the two forms of it are then compared
  · intro snapshot seen low resolved row member
    obtain ⟨⟨_, rfl⟩, rows⟩ := sound.vehicles.resolved snapshot seen low resolved
    have final := (rows row.vehicleId (mem_currentVehicleStates member)).finish drained
    rw [get?_seedVehicles, current_after, ← settled_map] at final
    rw [final, current_after, ← settled_map]
    exact settled_missed _
  · intro counts seen low resolved entry member
    obtain ⟨⟨_, rfl⟩, rows⟩ := sound.zones.resolved counts seen low resolved
    have final := (rows entry.1 (mem_zoneEntryCounts member)).finish drained
    rw [get?_seedZones, zone_after] at final
    rw [final, zone_after]
    exact settled_missed _
  · intro rows seen low resolved
    obtain ⟨⟨_, latest⟩, follows⟩ := sound.anomalies.resolved rows seen low resolved
    exact ⟨latest, fun v => (follows v trivial).finish drained⟩

open Page (byId idleDb faultWrite idle_member)

/-- The vehicle's fault is committed and delivered before the replica has it. -/
def stalePage : Lagged where
  committed := [faultWrite]
  replayed := 0
  position := 1
  vehicles := .resolved (currentVehicleStates byId idleDb) 0 1
  anomalies := .pending
  zones := .pending
  app := ⟨seedVehicles (currentVehicleStates byId idleDb), .empty, .empty⟩

theorem stalePage_reachable : Reachable shortTexts byId idleDb stalePage := by
  refine .head (.commit _ [faultWrite]) ?_
  refine .head (.readVehicles _ rfl) ?_
  refine .head (.deliver _ faultWrite rfl) ?_
  exact .head (.resolveVehicles _ _ _ rfl) .refl

/-- The consumer has started again, and the patch has come a second time. -/
def healedPage : Lagged :=
  { stalePage with
    vehicles := .resolved (currentVehicleStates byId idleDb) 0 0
    app := stalePage.app.deliver shortTexts faultWrite }

theorem healedPage_reachable : Reachable shortTexts byId idleDb healedPage := by
  refine .trans stalePage_reachable ?_
  refine .head (.restart _ 0 (Nat.zero_le _)) ?_
  exact .head (.deliver _ faultWrite rfl) .refl

theorem shown_exact_restart :
    stalePage.app.vehicles.get? "v1" = some (Vehicle.ofRow "v1" (chargingState .idle 80)) ∧
      healedPage.app.vehicles.get? "v1" =
        some (Vehicle.ofRow "v1" (chargingState .fault 80)) := by
  have stale := shown_exact _ _ _ _ stalePage_reachable rfl
  have healed := shown_exact _ _ _ _ healedPage_reachable rfl
  exact ⟨stale.1 _ _ _ rfl _ idle_member, healed.1 _ _ _ rfl _ idle_member⟩

end Lagged

end FleetTelemetry.Dashboard
