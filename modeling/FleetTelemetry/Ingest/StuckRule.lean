import FleetTelemetry.Ingest.Serializable

/-!
# The stuck rule over a run of readings

The rule compares an event with the one reading before it, so over a run of slow moving
readings it fires for the pairs that are far enough apart. How long the whole run lasts
does not matter.
-/

namespace FleetTelemetry.Ingest

open Foundations

/-- Moving by its status, but slower than the stuck threshold. -/
def SlowMoving (event : TelemetryEvent) : Prop :=
  event.status = .moving ∧ event.speed.lt stuckSpeedMps = true

def StuckOf (vehicleId : String) (a : Anomaly) : Prop :=
  a.vehicleId = vehicleId ∧ a.anomalyType = .stuck

/-- Two consecutive readings closer together than the dwell window. -/
def Close (earlier later : TelemetryEvent) : Prop :=
  later.recordedAt.instant - earlier.recordedAt.instant < stuckMinMicros

theorem stuck_not_stateless (event : TelemetryEvent) (detail : Option Detail) :
    (.stuck, detail) ∉ statelessAnomalies event := by
  simp [statelessAnomalies, List.mem_ite_nil_right]

theorem stuck_stateful (event : TelemetryEvent) (prior : CurrentState) (dt : Int) :
    (∃ detail, (.stuck, detail) ∈ statefulAnomalies event prior dt) ↔
      isStuck event prior dt = true := by
  constructor
  · rintro ⟨detail, fired⟩
    by_contra calm
    simp only [statefulAnomalies, List.mem_append] at fired
    rcases fired with (stuck | teleport) | rising
    · simp [calm] at stuck
    · split at teleport <;> simp [List.mem_ite_nil_right] at teleport
    · simp [List.mem_ite_nil_right] at rising
  · intro stuck
    refine ⟨some (.dwell event.speedMps dt), ?_⟩
    simp [statefulAnomalies, stuck]

theorem stuck_detected (event : TelemetryEvent) (prior : CurrentState) (anomalies : List Firing)
    (detected : detectAnomalies event (some prior) = .ok anomalies) :
    (∃ detail, (.stuck, detail) ∈ anomalies) ↔
      isStuck event prior (event.recordedAt.instant - prior.recordedAt) = true := by
  rw [detectAnomalies_some detected]
  simp only [List.mem_append, stuck_not_stateless, false_or]
  exact stuck_stateful event prior _

/-- One more slow reading adds a stuck anomaly unless it is close to the one before. -/
theorem stuck_step (earlier later : TelemetryEvent)
    (sameVehicle : later.vehicleId = earlier.vehicleId)
    (slow : SlowMoving earlier) (slow' : SlowMoving later) {db db' : Db}
    (row : db.vehicleCurrentState.get? earlier.vehicleId = some earlier.currentState)
    (persisted : postgres.run (persistTelemetry later) db = .ok ((), db')) :
    db'.vehicleCurrentState.get? later.vehicleId = some later.currentState ∧
    ((∃ a ∈ db'.anomalies, StuckOf earlier.vehicleId a) ↔
      (∃ a ∈ db.anomalies, StuckOf earlier.vehicleId a) ∨ ¬Close earlier later) := by
  obtain ⟨anomalies, detected, rfl⟩ := persistTelemetry_run later persisted
  rw [sameVehicle, row] at detected
  have fires := stuck_detected later earlier.currentState anomalies detected
  -- between two slow readings only the distance in time is left of the rule
  have dwell : isStuck later earlier.currentState
      (later.recordedAt.instant - earlier.recordedAt.instant) = true ↔ ¬Close earlier later := by
    simp [isStuck, Close, TelemetryEvent.currentState, slow.1, slow.2, slow'.1, slow'.2]
  constructor
  · simp [ingest]
  · have gap := fires.trans dwell
    rw [← gap]
    simp only [ingest, List.mem_append, or_and_right, exists_or, List.mem_map]
    apply or_congr Iff.rfl
    constructor
    · rintro ⟨a, ⟨firing, fired, rfl⟩, _, kind⟩
      refine ⟨firing.2, ?_⟩
      have same : firing.1 = .stuck := kind
      rwa [← same]
    · rintro ⟨detail, fired⟩
      exact ⟨_, ⟨_, fired, rfl⟩, sameVehicle, rfl⟩

/-- A run of slow moving readings of one vehicle has a stuck anomaly at its end exactly if
there was one after its first reading or two consecutive readings are not close. -/
theorem stuck_iff_gap (first : TelemetryEvent) (rest : List TelemetryEvent)
    (oneVehicle : ∀ r ∈ rest, r.vehicleId = first.vehicleId)
    (slow : ∀ r ∈ first :: rest, SlowMoving r) (db db₁ db' : Db)
    (start : postgres.run (persistTelemetry first) db = .ok ((), db₁))
    (persisted : persistAll rest db₁ = .ok db') :
    (∃ a ∈ db'.anomalies, StuckOf first.vehicleId a) ↔
      (∃ a ∈ db₁.anomalies, StuckOf first.vehicleId a) ∨
        ¬List.IsChain Close (first :: rest) := by
  have row : db₁.vehicleCurrentState.get? first.vehicleId = some first.currentState := by
    obtain ⟨anomalies, _, rfl⟩ := persistTelemetry_run first start
    simp [ingest]
  clear start
  -- along the readings, with the last one persisted as the vehicle's current row
  induction rest generalizing first db₁ with
  | nil =>
    cases persisted
    simp
  | cons second rest ih =>
    simp only [persistAll] at persisted
    split at persisted
    · cases persisted
    next db₂ done =>
      have sameVehicle := oneVehicle second List.mem_cons_self
      obtain ⟨row', stepped⟩ := stuck_step first second sameVehicle
        (slow first List.mem_cons_self) (slow second (by simp)) row done
      have remaining := ih second
        (fun r member => (oneVehicle r (List.mem_cons_of_mem _ member)).trans sameVehicle.symm)
        (fun r member => slow r (List.mem_cons_of_mem _ member)) db₂ persisted row'
      rw [sameVehicle] at remaining
      refine remaining.trans ?_
      rw [stepped, List.isChain_cons_cons, not_and_or, or_assoc]

/-- A reading of a vehicle that crawls at 5 cm/s. -/
def crawl (recordedAt : Int) : TelemetryEvent :=
  { vehicleId := "agv-1"
    status := .moving
    batteryPct := .finite 80
    recordedAt := .aware recordedAt
    speedMps := some (.finite (1 / 20))
    vehicleId_length := agv1_length
    batteryPct_range := batteryPct_eighty
    speedMps_range := by decide +kernel }

theorem slowMoving_crawl (recordedAt : Int) : SlowMoving (crawl recordedAt) := by
  have slow : Double.lt (.finite (1 / 20)) stuckSpeedMps = true := by decide +kernel
  exact ⟨rfl, slow⟩

theorem stuck_iff_gap_eleven_seconds :
    ∃ db₁ db', postgres.run (persistTelemetry (crawl 0)) Db.seeded = .ok ((), db₁) ∧
      persistAll [crawl 11000000] db₁ = .ok db' ∧
      ((∃ a ∈ db'.anomalies, StuckOf "agv-1" a) ↔
        (∃ a ∈ db₁.anomalies, StuckOf "agv-1" a) ∨
          ¬List.IsChain Close [crawl 0, crawl 11000000]) := by
  -- one gap of eleven seconds is longer than the rule asks for
  have slow : ∀ r ∈ [crawl 0, crawl 11000000], SlowMoving r := by
    intro r member
    simp only [List.mem_cons, List.not_mem_nil, or_false] at member
    rcases member with rfl | rfl <;> exact slowMoving_crawl _
  have succeeds : (persistAll [crawl 0, crawl 11000000] Db.seeded).isOk = true := by
    decide +kernel
  cases done : persistAll [crawl 0, crawl 11000000] Db.seeded with
  | error e => simp [done, Except.isOk, Except.toBool] at succeeds
  | ok db' =>
    rw [persistAll] at done
    split at done
    · cases done
    next db₁ start =>
      exact ⟨db₁, db', start, done, stuck_iff_gap (crawl 0) [crawl 11000000]
        (by simp [crawl]) slow Db.seeded db₁ db' start done⟩

/-- Twelve readings a second apart, all of them moving and slow. -/
def crawlEverySecond : List TelemetryEvent := (List.range 12).map fun n => crawl (n * 1000000)

/-- The run lasts eleven seconds and leaves no stuck anomaly. -/
theorem crawlEverySecond_not_stuck :
    (crawlEverySecond.map fun r => r.recordedAt.instant).Pairwise (· < ·) ∧
    (∀ r ∈ crawlEverySecond, SlowMoving r ∧ r.vehicleId = "agv-1") ∧
    stuckMinMicros ≤ (crawl 11000000).recordedAt.instant - (crawl 0).recordedAt.instant ∧
    crawlEverySecond.head? = some (crawl 0) ∧
    crawlEverySecond.getLast? = some (crawl 11000000) ∧
    ∃ db', persistAll crawlEverySecond Db.seeded = .ok db' ∧
      ¬∃ a ∈ db'.anomalies, StuckOf "agv-1" a := by
  refine ⟨by decide +kernel, ?_, by decide +kernel, rfl, rfl, ?_⟩
  · intro r member
    obtain ⟨n, _, rfl⟩ := List.mem_map.mp member
    exact ⟨slowMoving_crawl _, rfl⟩
  -- each reading is compared with the one a second before it, never with the first
  · obtain ⟨db', done, none⟩ := persistAll_checked crawlEverySecond Db.seeded
      (fun db' => decide (db'.anomalies = [])) (by decide +kernel)
    have quiet := of_decide_eq_true none
    exact ⟨db', done, by simp [quiet]⟩

end FleetTelemetry.Ingest
