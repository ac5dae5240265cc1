import FleetTelemetry.Dashboard.Convergence
import FleetTelemetry.Dashboard.Loading

/-!
# Snapshot, then stream

A snapshot that resolves after a newer patch puts the older row back, and the patch does
not come again. While no snapshot does, the page ends on the committed state.
-/

namespace FleetTelemetry.Dashboard

open Foundations

section Resumed

variable {V : Type} {g : Write → Option V} {v shown : Option V} {committed : List Write}
  {delivered seen resumed : Nat}

/-- A row of a store seeded by a snapshot of the first `seen` writes when `resumed` had
been delivered. -/
structure Resumed (g : Write → Option V) (v : Option V) (committed : List Write)
    (delivered seen resumed : Nat) (shown : Option V) : Prop where
  read : seen ≤ committed.length
  order : resumed ≤ delivered ∧ delivered ≤ committed.length
  gap : ∀ w ∈ (committed.take resumed).drop seen, g w = none
  value : shown = settled g ((committed.take delivered).drop resumed)
    (settled g (committed.take seen) v)

theorem Resumed.commit (row : Resumed g v committed delivered seen resumed shown)
    (writes : List Write) : Resumed g v (committed ++ writes) delivered seen resumed shown := by
  have read := row.read
  have order := row.order
  refine ⟨?_, ⟨order.1, ?_⟩, ?_, ?_⟩
  · simp; omega
  · simp; omega
  · rw [List.take_append_of_le_length (by omega)]
    exact row.gap
  · rw [List.take_append_of_le_length (by omega), List.take_append_of_le_length (by omega)]
    exact row.value

theorem Resumed.deliver (row : Resumed g v committed delivered seen resumed shown) {w : Write}
    (next : committed[delivered]? = some w) :
    Resumed g v committed (delivered + 1) seen resumed ((g w).or shown) := by
  have order := row.order
  -- the patch is one more entry at the end of what was delivered since the snapshot
  have inside : delivered < committed.length := (List.getElem?_eq_some_iff.mp next).1
  refine ⟨row.read, ⟨by omega, inside⟩, row.gap, ?_⟩
  have longer : (committed.take (delivered + 1)).drop resumed =
      (committed.take delivered).drop resumed ++ [w] := by
    rw [List.take_add_one, next, Option.toList_some, List.drop_append_of_le_length]
    simp; omega
  rw [longer, settled_append, ← row.value]
  rfl

/-- Once everything is delivered the row is the committed one. -/
theorem Resumed.loaded (row : Resumed g v committed delivered seen resumed shown)
    (all : delivered = committed.length) : shown = settled g committed v := by
  have value := row.value
  rw [all, List.take_length] at value
  rw [value, settled_resume committed v seen resumed row.gap]

end Resumed

namespace Page

variable {texts : Texts} {collate : String → String → Bool} {db : Db} {s s' : Page}

/-- What holds of a page after timely steps. -/
structure Sound (texts : Texts) (collate : String → String → Bool) (db : Db) (s : Page) :
    Prop where
  inOrder : s.delivered ≤ s.committed.length
  vehiclesRead : ∀ snapshot seen, s.vehicles = .read snapshot seen →
    seen ≤ s.committed.length ∧
      snapshot = currentVehicleStates collate (db.after (s.committed.take seen))
  vehicles : ∀ snapshot seen resumed, s.vehicles = .resolved snapshot seen resumed →
    ∀ row ∈ snapshot, row.vehicleId ∈ s.app.vehicles.keys ∧
      Resumed (fun w => (w.current row.vehicleId).map (Vehicle.ofRow row.vehicleId))
        ((db.vehicleCurrentState.get? row.vehicleId).map (Vehicle.ofRow row.vehicleId))
        s.committed s.delivered seen resumed (s.app.vehicles.get? row.vehicleId)
  zonesRead : ∀ snapshot seen, s.zones = .read snapshot seen →
    seen ≤ s.committed.length ∧
      snapshot = (zoneEntryCounts (db.after (s.committed.take seen))).entries
  zones : ∀ snapshot seen resumed, s.zones = .resolved snapshot seen resumed →
    ∀ entry ∈ snapshot, entry.1 ∈ s.app.zones.keys ∧
      Resumed (Write.zone entry.1) (db.zoneCounts.get? entry.1) s.committed s.delivered seen
        resumed (s.app.zones.get? entry.1)
  anomaliesRead : ∀ rows seen, s.anomalies = .read rows seen →
    (rows.map Anomaly.vehicleId).Nodup
  anomalies : ∀ rows seen resumed, s.anomalies = .resolved rows seen resumed →
    AnomaliesKept texts s

theorem sound_mounted : mounted.Sound texts collate db where
  inOrder := Nat.le_refl 0
  vehiclesRead := nofun
  vehicles := nofun
  zonesRead := nofun
  zones := nofun
  anomaliesRead := nofun
  anomalies := nofun

theorem Supersedes.commit {i : Nat} {a b : Anomaly} (later : s.Supersedes i a b)
    (writes : List Write) :
    Supersedes { s with committed := s.committed ++ writes } i a b := by
  refine ⟨later.1, later.2.imp_right (Or.imp_right ?_)⟩
  rintro ⟨j, after, present⟩
  have inside := (List.getElem?_eq_some_iff.mp present).1
  exact ⟨j, after, by rw [List.getElem?_append_left inside]; exact present⟩

theorem Sound.commit (sound : s.Sound texts collate db) (writes : List Write) :
    Sound texts collate db { s with committed := s.committed ++ writes } where
  inOrder := by
    have order := sound.inOrder
    change s.delivered ≤ (s.committed ++ writes).length
    simp; omega
  vehiclesRead := by
    intro snapshot seen read
    obtain ⟨before, answer⟩ := sound.vehiclesRead snapshot seen read
    constructor
    · simp; omega
    · rw [List.take_append_of_le_length before]
      exact answer
  vehicles := by
    intro snapshot seen resumed resolved row member
    obtain ⟨known, shown⟩ := sound.vehicles snapshot seen resumed resolved row member
    exact ⟨known, shown.commit writes⟩
  zonesRead := by
    intro snapshot seen read
    obtain ⟨before, answer⟩ := sound.zonesRead snapshot seen read
    constructor
    · simp; omega
    · rw [List.take_append_of_le_length before]
      exact answer
  zones := by
    intro snapshot seen resumed resolved entry member
    obtain ⟨known, shown⟩ := sound.zones snapshot seen resumed resolved entry member
    exact ⟨known, shown.commit writes⟩
  anomaliesRead := sound.anomaliesRead
  anomalies := by
    intro rows seen resumed resolved i a before present
    have order := sound.inOrder
    -- a delivered write lies in the old part of the log, so nothing about it changes
    have inside : i < s.committed.length := Nat.lt_of_lt_of_le before order
    have present' : s.committed[i]? = some (.appendAnomaly a) := by
      rw [← present]
      exact (List.getElem?_append_left inside).symm
    obtain ⟨b, later, shown⟩ := sound.anomalies rows seen resumed resolved i a before present'
    exact ⟨b, later.commit writes, shown⟩

/-- A delivered anomaly is shown in place of the ones before it. -/
theorem AnomaliesKept.deliver (kept : AnomaliesKept texts s) {w : Write}
    (next : s.committed[s.delivered]? = some w) :
    AnomaliesKept texts
      { s with delivered := s.delivered + 1, app := s.app.deliver texts w } := by
  intro i a before present
  -- an anomaly of the same vehicle takes the place of the one shown; it was written later
  rcases Nat.lt_succ_iff_lt_or_eq.mp before with earlier | here
  · rcases anomaly_deliver texts s.app a.vehicleId w with ⟨b, rfl, same⟩ | unchanged
    · refine ⟨b, ⟨same, .inr (.inr ⟨s.delivered, earlier, next⟩)⟩, .inl ?_⟩
      exact anomaly_delivered texts s.app b
    · obtain ⟨b, later, shown⟩ := kept i a earlier present
      refine ⟨b, later, ?_⟩
      rw [← later.1] at unchanged
      exact shown.imp unchanged.trans unchanged.trans
  · change s.committed[i]? = _ at present
    rw [here, next] at present
    cases Option.some.inj present
    exact ⟨a, ⟨rfl, .inl rfl⟩, .inl (anomaly_delivered texts s.app a)⟩

theorem Sound.deliver (sound : s.Sound texts collate db) {w : Write}
    (next : s.committed[s.delivered]? = some w) :
    Sound texts collate db
      { s with delivered := s.delivered + 1, app := s.app.deliver texts w } where
  inOrder := (List.getElem?_eq_some_iff.mp next).1
  vehiclesRead := sound.vehiclesRead
  -- a resolved snapshot stays in the store, with one more write on top of it
  vehicles := by
    intro snapshot seen resumed resolved row member
    obtain ⟨known, shown⟩ := sound.vehicles snapshot seen resumed resolved row member
    refine ⟨(mem_vehicles_deliver texts s.app w row.vehicleId).mpr known, ?_⟩
    change Resumed _ _ _ _ _ _ ((s.app.deliver texts w).vehicles.get? row.vehicleId)
    rw [vehicle_deliver texts known w]
    exact shown.deliver next
  zonesRead := sound.zonesRead
  zones := by
    intro snapshot seen resumed resolved entry member
    obtain ⟨known, shown⟩ := sound.zones snapshot seen resumed resolved entry member
    refine ⟨(mem_zones_deliver texts s.app w entry.1).mpr known, ?_⟩
    change Resumed _ _ _ _ _ _ ((s.app.deliver texts w).zones.get? entry.1)
    rw [zone_deliver texts known w]
    exact shown.deliver next
  anomaliesRead := sound.anomaliesRead
  anomalies := fun rows seen resumed resolved =>
    (sound.anomalies rows seen resumed resolved).deliver next

theorem Sound.resolveVehicles (sound : s.Sound texts collate db)
    {snapshot : List VehicleSnapshotRow} {seen : Nat} (answered : s.vehicles = .read snapshot seen)
    (timely : s.Timely .resolveVehicles) :
    Sound texts collate db { s with
      vehicles := .resolved snapshot seen s.delivered
      app := { s.app with vehicles := seedVehicles snapshot } } := by
  obtain ⟨before, rfl⟩ := sound.vehiclesRead snapshot seen answered
  -- the seed replaces whatever the store held; timeliness says that no patch is lost by it
  refine { sound with vehiclesRead := nofun, vehicles := ?_ }
  rintro snapshot' seen' resumed ⟨⟩ row member
  refine ⟨mem_currentVehicleStates member, before, ⟨Nat.le_refl _, sound.inOrder⟩, ?_, ?_⟩
  · intro w overtaken
    rw [timely _ seen answered w overtaken row member]
    rfl
  · have none : (s.committed.take s.delivered).drop s.delivered = [] := by simp
    rw [none, settled_map, ← current_after]
    exact get?_seedVehicles collate _ row.vehicleId

theorem Sound.resolveZones (sound : s.Sound texts collate db) {snapshot : ZoneCountsSnapshot}
    {seen : Nat} (answered : s.zones = .read snapshot seen) (timely : s.Timely .resolveZones) :
    Sound texts collate db { s with
      zones := .resolved snapshot seen s.delivered
      app := { s.app with zones := seedZones snapshot } } := by
  obtain ⟨before, rfl⟩ := sound.zonesRead snapshot seen answered
  refine { sound with zonesRead := nofun, zones := ?_ }
  rintro snapshot' seen' resumed ⟨⟩ entry member
  refine ⟨mem_zoneEntryCounts member, before, ⟨Nat.le_refl _, sound.inOrder⟩, ?_, ?_⟩
  · exact fun w overtaken => timely _ seen answered w overtaken entry member
  · have none : (s.committed.take s.delivered).drop s.delivered = [] := by simp
    rw [none, ← zone_after]
    exact get?_seedZones _ entry.1

theorem Sound.resolveAnomalies (sound : s.Sound texts collate db) {rows : List Anomaly}
    {seen : Nat} (answered : s.anomalies = .read rows seen)
    (timely : s.Timely .resolveAnomalies) :
    Sound texts collate db { s with
      anomalies := .resolved rows seen s.delivered
      app := { s.app with anomalies := seedAnomalies (rows.map (anomalySnapshotRow texts)) } } := by
  refine { sound with anomaliesRead := nofun, anomalies := ?_ }
  intro rows' seen' resumed _ i a before present
  obtain ⟨row, member, later⟩ := timely rows seen answered i a before present
  have distinct := sound.anomaliesRead rows seen answered
  exact ⟨row, later, .inr (get?_seedAnomalies texts distinct member)⟩

theorem Sound.step (sound : s.Sound texts collate db) {action : Action}
    (step : Step texts collate db s action s') (timely : s.Timely action) :
    s'.Sound texts collate db := by
  cases step with
  | commit writes => exact sound.commit writes
  -- a read has the rows of all that is committed by then
  | readVehicles pending =>
    refine { sound with vehiclesRead := ?_, vehicles := nofun }
    rintro snapshot seen ⟨⟩
    exact ⟨Nat.le_refl _, by rw [List.take_length]⟩
  | readAnomalies rows pending answer =>
    refine { sound with anomaliesRead := ?_, anomalies := nofun }
    rintro rows' seen ⟨⟩
    exact answer.distinct
  | readZones pending =>
    refine { sound with zonesRead := ?_, zones := nofun }
    rintro snapshot seen ⟨⟩
    exact ⟨Nat.le_refl _, by rw [List.take_length]⟩
  -- a read that resolves in time overwrites no patch
  | resolveVehicles snapshot seen answered => exact sound.resolveVehicles answered timely
  | resolveAnomalies rows seen answered => exact sound.resolveAnomalies answered timely
  | resolveZones snapshot seen answered => exact sound.resolveZones answered timely
  | deliver w next => exact sound.deliver next

theorem TimelyReachable.sound (reachable : TimelyReachable texts collate db s) :
    s.Sound texts collate db := by
  induction reachable with
  | refl => exact sound_mounted
  | tail _ step ih =>
    obtain ⟨action, taken, timely⟩ := step
    exact ih.step taken timely

/-- A loaded page has lost nothing if each snapshot resolved in time. -/
theorem loaded_nothingLost (texts : Texts) (collate : String → String → Bool) (db : Db)
    (s : Page) (reachable : TimelyReachable texts collate db s) (loaded : s.Loaded) :
    NothingLost texts db s := by
  have sound := reachable.sound
  have all := loaded.2.2.2
  obtain ⟨_, ⟨rows, seen, resumed, resolved⟩, _⟩ := loaded
  refine ⟨?_, ?_, sound.anomalies rows seen resumed resolved⟩
  · intro snapshot seen resumed resolved row member
    obtain ⟨known, shown⟩ := sound.vehicles snapshot seen resumed resolved row member
    have final := shown.loaded all
    rw [settled_map, ← current_after] at final
    -- a seeded key stays in the store, so the committed row it settles to exists
    have present := (OrdMap.mem_keys_iff _ _).mp known
    rw [final, Option.isSome_map] at present
    obtain ⟨state, stored⟩ := Option.isSome_iff_exists.mp present
    exact ⟨state, stored, by rw [final, stored]; rfl⟩
  · intro snapshot seen resumed resolved entry member
    obtain ⟨known, shown⟩ := sound.zones snapshot seen resumed resolved entry member
    have final := shown.loaded all
    rw [← zone_after] at final
    have present := (OrdMap.mem_keys_iff _ _).mp known
    rw [final] at present
    obtain ⟨count, stored⟩ := Option.isSome_iff_exists.mp present
    exact ⟨count, stored, final.trans stored⟩

def byId (a b : String) : Bool := decide (a ≤ b)

/-- One idle vehicle, and no zones. -/
def idleDb : Db := Db.migrated.after [.putCurrent "v1" (chargingState .idle 80)]

def faultWrite : Write := .putCurrent "v1" (chargingState .fault 80)

theorem idle_member :
    vehicleSnapshotRow "v1" (chargingState .idle 80) ∈ currentVehicleStates byId idleDb := by
  have stored : ("v1", chargingState .idle 80) ∈ idleDb.vehicleCurrentState.entries :=
    OrdMap.mem_of_get? _ _ _ (OrdMap.get?_set_self ..)
  exact List.mem_map.mpr ⟨_, List.mem_mergeSort.mpr stored, rfl⟩

theorem noAnomalies : LatestAnomalies idleDb [] := by
  have none : idleDb.anomalies = [] := rfl
  refine ⟨.nil, ?_, ?_⟩
  · exact fun _ member => (List.not_mem_nil member).elim
  · rw [none]
    exact fun _ member => (List.not_mem_nil member).elim

/-- The page after each snapshot and the patch, with the vehicle snapshot resolved last. -/
def latePage : Page where
  committed := [faultWrite]
  delivered := 1
  vehicles := .resolved (currentVehicleStates byId idleDb) 0 1
  anomalies := .resolved [] 0 1
  zones := .resolved [] 0 1
  app := ⟨seedVehicles (currentVehicleStates byId idleDb), .empty, .empty⟩

theorem latePage_reachable : Reachable shortTexts byId idleDb latePage := by
  refine .head ⟨_, .readVehicles _ rfl⟩ ?_
  refine .head ⟨_, .readAnomalies _ [] rfl noAnomalies⟩ ?_
  refine .head ⟨_, .readZones _ rfl⟩ ?_
  refine .head ⟨_, .commit _ [faultWrite]⟩ ?_
  refine .head ⟨_, .deliver _ faultWrite rfl⟩ ?_
  refine .head ⟨_, .resolveVehicles _ _ _ rfl⟩ ?_
  refine .head ⟨_, .resolveAnomalies _ _ _ rfl⟩ ?_
  refine .head ⟨_, .resolveZones _ _ _ rfl⟩ ?_
  exact .refl

theorem late_snapshot_loses_patch :
    ¬∀ s, Reachable shortTexts byId idleDb s → s.Loaded → NothingLost shortTexts idleDb s := by
  intro all
  have loaded : latePage.Loaded := ⟨⟨_, _, _, rfl⟩, ⟨_, _, _, rfl⟩, ⟨_, _, _, rfl⟩, rfl⟩
  obtain ⟨state, stored, shown⟩ :=
    (all latePage latePage_reachable loaded).vehicles _ _ _ rfl _ idle_member
  -- the fault is committed, and the store has the idle state of the snapshot
  have committed : state = chargingState .fault 80 := by
    have last : (idleDb.after latePage.committed).vehicleCurrentState.get? "v1" =
      some (chargingState .fault 80) := rfl
    exact Option.some.inj (stored.symm.trans last)
  have old : latePage.app.vehicles.get? "v1" = some (Vehicle.ofRow "v1" (chargingState .idle 80)) :=
    get?_seedVehicles byId idleDb "v1"
  rw [committed] at shown
  have same := Option.some.inj (shown.symm.trans old)
  have status := congrArg Vehicle.status same
  exact absurd status (by decide)

/-- The three snapshots resolve, then the patch arrives. -/
def timelyPage : Page where
  committed := [faultWrite]
  delivered := 1
  vehicles := .resolved (currentVehicleStates byId idleDb) 0 0
  anomalies := .resolved [] 0 0
  zones := .resolved [] 0 0
  app := App.deliver shortTexts ⟨seedVehicles (currentVehicleStates byId idleDb), .empty, .empty⟩
    faultWrite

theorem timelyPage_reachable : TimelyReachable shortTexts byId idleDb timelyPage := by
  refine .head ⟨_, .readVehicles _ rfl, trivial⟩ ?_
  refine .head ⟨_, .readAnomalies _ [] rfl noAnomalies, trivial⟩ ?_
  refine .head ⟨_, .readZones _ rfl, trivial⟩ ?_
  refine .head ⟨_, .commit _ [faultWrite], trivial⟩ ?_
  refine .head ⟨_, .resolveVehicles _ _ _ rfl, ?_⟩ ?_
  · rintro snapshot seen ⟨⟩ w ⟨⟩
  refine .head ⟨_, .resolveAnomalies _ _ _ rfl, ?_⟩ ?_
  · rintro rows seen ⟨⟩ i a ⟨⟩
  refine .head ⟨_, .resolveZones _ _ _ rfl, ?_⟩ ?_
  · rintro snapshot seen ⟨⟩ w ⟨⟩
  refine .head ⟨_, .deliver _ faultWrite rfl, trivial⟩ ?_
  exact .refl

theorem loaded_nothingLost_fault : NothingLost shortTexts idleDb timelyPage :=
  loaded_nothingLost shortTexts byId idleDb timelyPage timelyPage_reachable
    ⟨⟨_, _, _, rfl⟩, ⟨_, _, _, rfl⟩, ⟨_, _, _, rfl⟩, rfl⟩

end Page

end FleetTelemetry.Dashboard
