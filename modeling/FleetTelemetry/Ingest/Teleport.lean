import FleetTelemetry.Ingest.Serializable
import Mathlib.Analysis.CStarAlgebra.Classes
import Mathlib.Analysis.Complex.Norm

/-!
# The teleport rule over a run of readings

The rule compares consecutive readings, and the triangle inequality carries its limit to
any two readings of a run. A pair with the same instant is exempt: there is no speed to
compute, and the guard of the rule skips it.
-/

namespace FleetTelemetry.Ingest

open Foundations

def teleportOf (vehicleId : String) (a : Anomaly) : Bool :=
  decide (a.vehicleId = vehicleId) && decide (a.anomalyType = .teleport)

/-- The reading has a position, with coordinates that are numbers. -/
def HasPosition (event : TelemetryEvent) : Prop :=
  ∃ x y : ℚ, event.posX = some (.finite x) ∧ event.posY = some (.finite y)

def coordinate : Option Double → ℚ
  | some (.finite q) => q
  | _ => 0

/-- The position as a point of the plane, whose distance is the euclidean one. -/
noncomputable def position (event : TelemetryEvent) : ℂ :=
  ⟨coordinate event.posX, coordinate event.posY⟩

/-- The time from one reading to another, in seconds. -/
noncomputable def elapsed (earlier later : TelemetryEvent) : ℝ :=
  ((later.recordedAt.instant - earlier.recordedAt.instant : ℤ) : ℝ) / 1000000

/-- The way covered between consecutive readings of the same instant. -/
noncomputable def jumps : List TelemetryEvent → ℝ
  | earlier :: later :: rest =>
    (if later.recordedAt.instant = earlier.recordedAt.instant
      then dist (position earlier) (position later) else 0) + jumps (later :: rest)
  | _ => 0

/-- The reading is within the speed limit of the one before it. -/
def Reaches (earlier later : TelemetryEvent) : Prop :=
  dist (position earlier) (position later) ≤ 15 * elapsed earlier later + jumps [earlier, later]

theorem teleport_stateful {event : TelemetryEvent} {prior : CurrentState} {dt : Int}
    {implied : Double} (moved : impliedMpsSq event prior dt = some implied)
    (fast : teleportMpsSq.lt implied = true) :
    ∃ detail, (.teleport, detail) ∈ statefulAnomalies event prior dt := by
  refine ⟨some (.impliedMpsSq implied), ?_⟩
  simp [statefulAnomalies, moved, fast]

section Steps

variable {earlier later : TelemetryEvent}

theorem dist_position (a b : TelemetryEvent) :
    dist (position a) (position b) =
      √((((coordinate b.posX - coordinate a.posX) * (coordinate b.posX - coordinate a.posX) +
        (coordinate b.posY - coordinate a.posY) * (coordinate b.posY - coordinate a.posY) : ℚ) :
          ℝ)) := by
  rw [dist_comm, Complex.dist_eq_re_im]
  congr 1
  push_cast [position]
  ring

/-- The implied speed of a pair with positions, squared. -/
theorem impliedMpsSq_placed (placed : HasPosition earlier) (placed' : HasPosition later)
    {dt : Int} (positive : 0 < dt) :
    impliedMpsSq later earlier.currentState dt = some (.finite
      (((coordinate later.posX - coordinate earlier.posX) *
          (coordinate later.posX - coordinate earlier.posX) +
        (coordinate later.posY - coordinate earlier.posY) *
          (coordinate later.posY - coordinate earlier.posY)) /
        ((dt / 1000000 : ℚ) * (dt / 1000000)))) := by
  obtain ⟨px, py, atX, atY⟩ := placed
  obtain ⟨ex, ey, atX', atY'⟩ := placed'
  simp [impliedMpsSq, TelemetryEvent.currentState, atX, atY, atX', atY', positive, coordinate,
    Double.sub, Double.hypotSq, Double.divBy]

/-- A pair that the rule does not report is within reach. -/
theorem reaches_of_calm (placed : HasPosition earlier) (placed' : HasPosition later)
    (ordered : earlier.recordedAt.instant ≤ later.recordedAt.instant)
    (calm : ∀ detail, (.teleport, detail) ∉ statefulAnomalies later earlier.currentState
      (later.recordedAt.instant - earlier.recordedAt.instant)) : Reaches earlier later := by
  by_cases same : later.recordedAt.instant = earlier.recordedAt.instant
  · simp [Reaches, jumps, elapsed, same]
  · have positive : 0 < later.recordedAt.instant - earlier.recordedAt.instant := by omega
    have implied := impliedMpsSq_placed placed placed' positive
    have slow : ¬teleportMpsSq.lt (.finite _) = true := fun fast =>
      let ⟨detail, fired⟩ := teleport_stateful implied fast
      calm detail fired
    have none : jumps [earlier, later] = 0 := by simp [jumps, same]
    rw [Reaches, none, add_zero, dist_position, elapsed]
    generalize later.recordedAt.instant - earlier.recordedAt.instant = dt at positive slow ⊢
    have seconds : (0 : ℚ) < dt / 1000000 := by
      have moved : (0 : ℚ) < dt := by exact_mod_cast positive
      positivity
    simp only [teleportMpsSq, Double.lt, decide_eq_true_eq, not_lt] at slow
    rw [div_le_iff₀ (mul_pos seconds seconds)] at slow
    -- the rule compares squares, so the bound on the distance is that of its square root
    refine Real.sqrt_le_iff.mpr ⟨?_, ?_⟩
    · have seconds' : (0 : ℝ) < ((dt / 1000000 : ℚ) : ℝ) := by exact_mod_cast seconds
      push_cast at seconds'
      positivity
    · refine (Rat.cast_le.mpr slow).trans (le_of_eq ?_)
      push_cast
      ring

/-- The limit carries over to the ends of a run, each step adding its own. -/
theorem dist_ends_le (a : TelemetryEvent) (mid : List TelemetryEvent) (b : TelemetryEvent)
    (steps : (a :: mid ++ [b]).IsChain Reaches) :
    dist (position a) (position b) ≤ 15 * elapsed a b + jumps (a :: mid ++ [b]) := by
  -- on the readings in between; the first step is split off
  induction mid generalizing a with
  | nil =>
    have step : Reaches a b := by simpa using steps
    exact step
  | cons m mid ih =>
    rw [List.cons_append, List.cons_append, List.isChain_cons_cons] at steps
    have first : dist (position a) (position m) ≤ 15 * elapsed a m + jumps [a, m] := steps.1
    have rest := ih m steps.2
    have time : elapsed a b = elapsed a m + elapsed m b := by
      simp only [elapsed]
      push_cast
      ring
    have way : jumps (a :: m :: mid ++ [b]) = jumps [a, m] + jumps (m :: mid ++ [b]) := by
      simp [jumps]
    calc dist (position a) (position b)
        ≤ dist (position a) (position m) + dist (position m) (position b) := dist_triangle _ _ _
      _ ≤ (15 * elapsed a m + jumps [a, m]) + (15 * elapsed m b + jumps (m :: mid ++ [b])) :=
        add_le_add first rest
      _ = 15 * elapsed a b + jumps (a :: m :: mid ++ [b]) := by
        rw [time, way]
        ring

end Steps

section Runs

variable {vehicleId : String}

theorem countP_ingest (event : TelemetryEvent) (anomalies : List Firing) (db : Db) :
    (ingest event anomalies db).anomalies.countP (teleportOf vehicleId) =
      db.anomalies.countP (teleportOf vehicleId) +
        (anomalies.map event.anomaly).countP (teleportOf vehicleId) := by
  rw [ingest, List.countP_append]

variable (vehicleId) in
/-- Readings only add anomalies. -/
theorem countP_persistAll {readings : List TelemetryEvent} {db db' : Db}
    (persisted : persistAll readings db = .ok db') :
    db.anomalies.countP (teleportOf vehicleId) ≤ db'.anomalies.countP (teleportOf vehicleId) := by
  induction readings generalizing db with
  | nil =>
    cases persisted
    exact Nat.le_refl _
  | cons reading readings ih =>
    simp only [persistAll] at persisted
    split at persisted
    · cases persisted
    -- anomalies are only appended, so the count cannot fall
    next db₁ done =>
      obtain ⟨anomalies, _, rfl⟩ := persistTelemetry_run reading done
      have later := ih persisted
      rw [countP_ingest] at later
      omega

/-- Without a new teleport anomaly, each reading is within reach of the one before it. -/
theorem reaches_persistAll (first : TelemetryEvent) (rest : List TelemetryEvent)
    (oneVehicle : ∀ r ∈ first :: rest, r.vehicleId = vehicleId)
    (placed : ∀ r ∈ first :: rest, HasPosition r)
    (ordered : (first :: rest).IsChain fun a b => a.recordedAt.instant ≤ b.recordedAt.instant)
    {db db' : Db} (row : db.vehicleCurrentState.get? vehicleId = some first.currentState)
    (persisted : persistAll rest db = .ok db')
    (calm : db'.anomalies.countP (teleportOf vehicleId) ≤
      db.anomalies.countP (teleportOf vehicleId)) : (first :: rest).IsChain Reaches := by
  -- along the readings, with the last one persisted as the vehicle's current row
  induction rest generalizing first db with
  | nil => exact List.isChain_singleton first
  | cons second rest ih =>
    simp only [persistAll] at persisted
    split at persisted
    · cases persisted
    next db₁ done =>
      obtain ⟨anomalies, detected, rfl⟩ := persistTelemetry_run second done
      have same : second.vehicleId = vehicleId := oneVehicle second (by simp)
      rw [same, row] at detected
      have fired := detectAnomalies_some detected
      have later := countP_persistAll vehicleId persisted
      rw [countP_ingest] at later
      have none : (anomalies.map second.anomaly).countP (teleportOf vehicleId) = 0 := by omega
      rw [List.isChain_cons_cons] at ordered ⊢
      constructor
      · apply reaches_of_calm (placed first (by simp)) (placed second (by simp)) ordered.1
        intro detail teleported
        have listed : (.teleport, detail) ∈ anomalies := by
          rw [fired]
          exact List.mem_append_right _ teleported
        have absent := List.countP_eq_zero.mp none _ (List.mem_map_of_mem listed)
        simp [teleportOf, TelemetryEvent.anomaly, same] at absent
      · refine ih second (fun r member => oneVehicle r (List.mem_cons_of_mem _ member))
          (fun r member => placed r (List.mem_cons_of_mem _ member)) ordered.2 ?_ persisted ?_
        · simp [ingest, same]
        · rw [countP_ingest]
          omega

/-- In a run of readings without a new teleport anomaly, any two positions are within the
limit, but for the jumps between consecutive readings of one instant. -/
theorem teleport_bounded (vehicleId : String) (readings : List TelemetryEvent)
    (oneVehicle : ∀ r ∈ readings, r.vehicleId = vehicleId)
    (placed : ∀ r ∈ readings, HasPosition r)
    (ordered : readings.IsChain fun a b => a.recordedAt.instant ≤ b.recordedAt.instant)
    (db db' : Db) (persisted : persistAll readings db = .ok db')
    (calm : db'.anomalies.countP (teleportOf vehicleId) =
      db.anomalies.countP (teleportOf vehicleId)) (a : TelemetryEvent)
    (mid : List TelemetryEvent) (b : TelemetryEvent) (segment : a :: mid ++ [b] <:+: readings) :
    dist (position a) (position b) ≤ 15 * elapsed a b + jumps (a :: mid ++ [b]) := by
  apply dist_ends_le
  refine List.IsChain.infix ?_ segment
  cases readings with
  | nil => exact List.isChain_nil
  | cons first rest =>
    simp only [persistAll] at persisted
    split at persisted
    · cases persisted
    next db₁ done =>
      -- the run starts from the row that the first reading leaves
      obtain ⟨anomalies, _, rfl⟩ := persistTelemetry_run first done
      apply reaches_persistAll first rest oneVehicle placed ordered _ persisted
      · rw [countP_ingest]
        omega
      · simp [ingest, oneVehicle first List.mem_cons_self]

end Runs

/-- A reading at the given instant and distance along an aisle. -/
def standing (recordedAt : Int) (x : ℚ) : TelemetryEvent :=
  { vehicleId := "agv-1"
    status := .idle
    batteryPct := .finite 80
    recordedAt := .aware recordedAt
    posX := some (.finite x)
    posY := some (.finite 0)
    vehicleId_length := agv1_length
    batteryPct_range := batteryPct_eighty
    speedMps_range := speedMps_standing }

theorem hasPosition_standing (recordedAt : Int) (x : ℚ) : HasPosition (standing recordedAt x) :=
  ⟨x, 0, rfl, rfl⟩

theorem dist_standing (a b : Int) (x : ℚ) (nonneg : 0 ≤ x) :
    dist (position (standing a 0)) (position (standing b x)) = x := by
  have nonneg' : (0 : ℝ) ≤ x := by exact_mod_cast nonneg
  rw [dist_position]
  simp only [coordinate, standing, sub_zero, mul_zero, add_zero]
  push_cast
  exact Real.sqrt_mul_self nonneg'

/-- Ten metres in a second. -/
theorem teleport_bounded_second :
    dist (position (standing 0 0)) (position (standing 1000000 10)) ≤
      15 * elapsed (standing 0 0) (standing 1000000 10) +
        jumps [standing 0 0, standing 1000000 10] := by
  obtain ⟨db', done, quiet⟩ := persistAll_checked
    [standing 0 0, standing 1000000 10] Db.seeded
    (fun db' => decide (db'.anomalies = [])) (by decide +kernel)
  have none := of_decide_eq_true quiet
  refine teleport_bounded "agv-1" _ ?_ ?_ ?_ Db.seeded db' done ?_ _ [] _ (List.infix_refl _)
  · simp [standing]
  · simp [hasPosition_standing]
  · simp [standing, Datetime.instant]
  · simp [none, Db.seeded, seedZones, Db.migrated]

/-- A kilometre in no time: the two readings carry the same instant. -/
theorem simultaneousJump_unreported :
    ∃ db', persistAll [standing 0 0, standing 0 1000] Db.seeded = .ok db' ∧
      db'.anomalies.countP (teleportOf "agv-1") = 0 ∧
      (standing 0 0).recordedAt.instant ≤ (standing 0 1000).recordedAt.instant ∧
      ¬dist (position (standing 0 0)) (position (standing 0 1000)) ≤
        15 * elapsed (standing 0 0) (standing 0 1000) := by
  obtain ⟨db', done, quiet⟩ := persistAll_checked
    [standing 0 0, standing 0 1000] Db.seeded
    (fun db' => decide (db'.anomalies.countP (teleportOf "agv-1") = 0)) (by decide +kernel)
  refine ⟨db', done, of_decide_eq_true quiet, Int.le_refl 0, ?_⟩
  rw [dist_standing 0 0 1000 (by norm_num)]
  norm_num [elapsed, standing, Datetime.instant]

end FleetTelemetry.Ingest
