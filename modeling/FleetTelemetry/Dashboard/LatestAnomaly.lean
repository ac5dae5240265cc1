import FleetTelemetry.Dashboard.Convergence

/-!
# The latest anomaly

The snapshot orders a vehicle's anomalies by `detected_at`, while the patches that follow
replace one another in order of arrival. `latestAnomaly_iff` says when the two agree.
-/

namespace FleetTelemetry.Dashboard

open Foundations
open Cdc (Numerals)

/-- The instant, if any, is the latest of the vehicle's anomalies. -/
def IsLatest (rows : List Anomaly) (vehicleId : String) : Option Int → Prop
  | none => ∀ row ∈ rows, row.vehicleId ≠ vehicleId
  | some t => (∃ row ∈ rows, row.vehicleId = vehicleId ∧ row.detectedAt = t) ∧
    ∀ row ∈ rows, row.vehicleId = vehicleId → row.detectedAt ≤ t

theorem IsLatest.unique {rows : List Anomaly} {v : String} {o o' : Option Int}
    (left : IsLatest rows v o) (right : IsLatest rows v o') : o = o' := by
  cases o with
  | none =>
    cases o' with
    | none => rfl
    | some t =>
      obtain ⟨row, listed, owner, _⟩ := right.1
      exact (left row listed owner).elim
  | some t =>
    obtain ⟨row, listed, owner, dated⟩ := left.1
    cases o' with
    | none => exact (right row listed owner).elim
    | some t' =>
      obtain ⟨row', listed', owner', dated'⟩ := right.1
      have below := right.2 row listed owner
      have above := left.2 row' listed' owner'
      have same : t = t' := by omega
      rw [same]

/-- The instant a reading of the snapshot query gives for the vehicle. -/
def latestInstant (rows : List Anomaly) (vehicleId : String) : Option Int :=
  (rows.find? fun row => decide (row.vehicleId = vehicleId)).map Anomaly.detectedAt

theorem isLatest_latestInstant {db : Db} {rows : List Anomaly} (read : LatestAnomalies db rows)
    (v : String) : IsLatest db.anomalies v (latestInstant rows v) := by
  unfold latestInstant
  cases found : rows.find? fun row => decide (row.vehicleId = v) with
  | none =>
    intro a stored owner
    obtain ⟨row, listed, same, _⟩ := read.latest a stored
    have absent := List.find?_eq_none.mp found row listed
    simp [same, owner] at absent
  | some row =>
    have listed := List.mem_of_find?_eq_some found
    have owner : row.vehicleId = v := by simpa using List.find?_some found
    refine ⟨⟨row, read.stored row listed, owner, rfl⟩, ?_⟩
    intro a stored owner'
    obtain ⟨row', listed', same, later⟩ := read.latest a stored
    -- the query answers one row a vehicle
    have one : row' = row := List.inj_on_of_nodup_map read.distinct listed' listed
      (by rw [same, owner', owner])
    rw [one] at later
    exact later

/-- The insert as the vehicle sees it. -/
def insertOf (vehicleId : String) (row : Anomaly) : Option Anomaly :=
  if row.vehicleId = vehicleId then some row else none

/-- If any insert after the `k`th is the vehicle's, then the last such insert is no older
than any anomaly of the vehicle. -/
def LastIsLatest (rows : List Anomaly) (k : Nat) (vehicleId : String) : Prop :=
  ∀ last, lastWrite (insertOf vehicleId) (rows.drop k) = some last →
    ∀ row ∈ rows, row.vehicleId = vehicleId → row.detectedAt ≤ last.detectedAt

/-- The page seeded from the snapshot that then receives the patches of the inserts. -/
def follow (num : Numerals) (texts : Texts) (snapshot patches : List Anomaly) : App :=
  patches.foldl (fun app row => app.receive num texts (.appendAnomaly row))
    { App.initial with anomalies := seedAnomalies (snapshot.map (anomalySnapshotRow texts)) }

section Store

variable {num : Numerals} {texts : Texts} {instant : String → Option Int} {v : String}

theorem insertOf_some {row last : Anomaly} (found : insertOf v row = some last) :
    row = last ∧ last.vehicleId = v := by
  unfold insertOf at found
  split at found
  next owner =>
    cases found
    exact ⟨rfl, owner⟩
  · cases found

/-- Inserts of other vehicles do not change what is latest. -/
theorem isLatest_untouched {rows : List Anomaly} {k : Nat} {latest : Option Int}
    (untouched : lastWrite (insertOf v) (rows.drop k) = none)
    (before : IsLatest (rows.take k) v latest) : IsLatest rows v latest := by
  -- no row of the vehicle comes behind the prefix
  have mine : ∀ row ∈ rows, row.vehicleId = v → row ∈ rows.take k := by
    intro row listed owner
    rw [← List.take_append_drop k rows] at listed
    rcases List.mem_append.mp listed with early | late
    · exact early
    · have other := (lastWrite_eq_none_iff _).mp untouched row late
      simp [insertOf, owner] at other
  cases latest with
  | none =>
    intro row listed owner
    exact before row (mine row listed owner) owner
  | some t =>
    obtain ⟨⟨row, early, owner, dated⟩, bound⟩ := before
    constructor
    · exact ⟨row, List.mem_of_mem_take early, owner, dated⟩
    · exact fun row' listed owner' => bound row' (mine row' listed owner') owner'

theorem get?_seedAnomalies_none {snapshot : List Anomaly}
    (absent : ∀ row ∈ snapshot, row.vehicleId ≠ v) :
    (seedAnomalies (snapshot.map (anomalySnapshotRow texts))).get? v = none := by
  have seeded := settled_foldl (g := fun row => (insertOf v row).map (anomalySnapshotRow texts))
    (fun map row => map.set row.vehicleId (anomalySnapshotRow texts row)) (fun _ => True)
    (fun map : AnomalyMap => map.get? v) (fun _ _ _ => trivial) ?_ snapshot .empty trivial
  -- folding the snapshot settles the vehicle at the last row of its own
  · rw [settled_untouched] at seeded
    · rw [seedAnomalies, List.foldl_map]
      exact seeded
    · intro row listed
      simp [insertOf, absent row listed]
  · intro map row _
    rw [OrdMap.get?_set, insertOf]
    by_cases owner : row.vehicleId = v
    · simp [owner]
    · have apart : v ≠ row.vehicleId := fun equal => owner equal.symm
      simp [owner, apart]

/-- What the page shows before any patch is what the query answered. -/
theorem seeded_instant {snapshot : List Anomaly}
    (distinct : (snapshot.map Anomaly.vehicleId).Nodup)
    (isoformats : ∀ row ∈ snapshot, instant (texts.isoformat row.detectedAt) =
      some row.detectedAt) :
    ((seedAnomalies (snapshot.map (anomalySnapshotRow texts))).get? v).bind
      (fun shown => instant shown.detectedAt) = latestInstant snapshot v := by
  unfold latestInstant
  -- one row a vehicle, so the first of its rows is the one it shows
  cases found : snapshot.find? fun row => decide (row.vehicleId = v) with
  | none =>
    have absent : ∀ row ∈ snapshot, row.vehicleId ≠ v := by
      intro row listed
      simpa using List.find?_eq_none.mp found row listed
    rw [get?_seedAnomalies_none absent]
    rfl
  | some row =>
    have listed := List.mem_of_find?_eq_some found
    have owner : row.vehicleId = v := by simpa using List.find?_some found
    rw [← owner, get?_seedAnomalies texts distinct listed]
    exact isoformats row listed

/-- The page shows the last patch of the vehicle, or else what it was seeded with. -/
theorem get?_follow (snapshot patches : List Anomaly) :
    (follow num texts snapshot patches).anomalies.get? v =
      ((lastWrite (insertOf v) patches).map (anomalyPayload texts)).or
        ((seedAnomalies (snapshot.map (anomalySnapshotRow texts))).get? v) := by
  rw [← lastWrite_map]
  refine settled_foldl (fun (app : App) row => app.receive num texts (.appendAnomaly row))
    (fun _ => True) (fun app => app.anomalies.get? v) (fun _ _ _ => trivial) ?_ patches _ trivial
  intro app row _
  have received : app.receive num texts (.appendAnomaly row) =
      app.deliver texts (.appendAnomaly row) := by
    have printed : (Write.appendAnomaly row).Printed num texts := trivial
    rw [App.receive, parsePatch_event printed]
    rfl
  rw [received, insertOf]
  -- a patch shows the anomaly of its own vehicle and of no other
  by_cases owner : row.vehicleId = v
  · subst owner
    simp [anomaly_delivered]
  · rcases anomaly_deliver texts app v (.appendAnomaly row) with ⟨a, same, owner'⟩ | kept
    · cases same
      exact (owner owner').elim
    · simp [owner, kept]

end Store

/-- The instant of the vehicle's anomaly on the page, as its text is read. -/
def shownInstant (instant : String → Option Int) (app : App) (vehicleId : String) : Option Int :=
  (app.anomalies.get? vehicleId).bind fun shown => instant shown.detectedAt

/-- The table after the inserts. -/
def inserted (rows : List Anomaly) : Db := { Db.migrated with anomalies := rows }

/-- Seeded after `k` inserts and fed the patches of the rest, the page agrees with the
query on a vehicle's latest instant exactly if the last patch of the vehicle is its latest
anomaly. -/
theorem latestAnomaly_iff (num : Numerals) (texts : Texts) (instant : String → Option Int)
    (rows : List Anomaly) (k : Nat) (snapshot final : List Anomaly)
    (timestamps : ∀ row ∈ rows, instant (texts.timestamp row.detectedAt) = some row.detectedAt)
    (isoformats : ∀ row ∈ rows, instant (texts.isoformat row.detectedAt) = some row.detectedAt)
    (seeded : LatestAnomalies (inserted (rows.take k)) snapshot)
    (asked : LatestAnomalies (inserted rows) final) (v : String) :
    shownInstant instant (follow num texts snapshot (rows.drop k)) v = latestInstant final v ↔
      LastIsLatest rows k v := by
  have latest : IsLatest rows v (latestInstant final v) := isLatest_latestInstant asked v
  rw [shownInstant, get?_follow]
  cases patched : lastWrite (insertOf v) (rows.drop k) with
  -- no patch for the vehicle: the page shows the snapshot, which is still right
  | none =>
    have same : latestInstant snapshot v = latestInstant final v :=
      IsLatest.unique (isLatest_untouched patched (isLatest_latestInstant seeded v)) latest
    have vacuous : LastIsLatest rows k v := by
      intro last found
      rw [patched] at found
      cases found
    have shown := seeded_instant (v := v) seeded.distinct fun row listed =>
      isoformats row (List.mem_of_mem_take (seeded.stored row listed))
    rw [Option.map_none, Option.none_or, shown]
    exact iff_of_true same vacuous
  -- the page shows the last patch, whether or not it is the latest anomaly
  | some last =>
    obtain ⟨row, late, found⟩ := exists_of_lastWrite patched
    obtain ⟨rfl, owner⟩ := insertOf_some found
    have listed := List.mem_of_mem_drop late
    have shown : instant (anomalyPayload texts row).detectedAt = some row.detectedAt :=
      timestamps row listed
    rw [Option.map_some, Option.some_or, Option.bind_some, shown]
    constructor
    · intro agrees last found'
      rw [patched, Option.some.injEq] at found'
      subst found'
      rw [← agrees] at latest
      exact latest.2
    · intro dominates
      exact IsLatest.unique ⟨⟨row, listed, owner, rfl⟩, dominates row patched⟩ latest

/-- The two instants of the examples as the stream and the snapshot print them. -/
def epochTexts : Texts :=
  { shortTexts with
    timestamp := fun t => if t = 0 then "1970-01-01 00:00:00+00" else "1970-01-01 00:00:01+00"
    isoformat := fun t =>
      if t = 0 then "1970-01-01T00:00:00+00:00" else "1970-01-01T00:00:01+00:00" }

def epochInstant (text : String) : Option Int :=
  if text = "1970-01-01 00:00:00+00" ∨ text = "1970-01-01T00:00:00+00:00" then some 0
  else if text = "1970-01-01 00:00:01+00" ∨ text = "1970-01-01T00:00:01+00:00" then
    some 1000000
  else none

def faultAt (detectedAt : Int) : Anomaly := ⟨"agv-1", .faultStatus, none, detectedAt⟩

theorem latestAnomalies_single {rows : List Anomaly} {row : Anomaly} (stored : row ∈ rows)
    (latest : ∀ a ∈ rows, row.vehicleId = a.vehicleId ∧ a.detectedAt ≤ row.detectedAt) :
    LatestAnomalies (inserted rows) [row] where
  distinct := List.nodup_singleton _
  stored a listed := by
    rw [List.mem_singleton.mp listed]
    exact stored
  latest a listed := ⟨row, List.mem_singleton_self row, latest a listed⟩

/-- The anomalies arrive in the order they were detected in. -/
theorem latestAnomaly_iff_inOrder :
    shownInstant epochInstant (follow shortNumerals epochTexts [faultAt 0] [faultAt 1000000])
      "agv-1" = latestInstant [faultAt 1000000] "agv-1" :=
  (latestAnomaly_iff shortNumerals epochTexts epochInstant [faultAt 0, faultAt 1000000] 1
    [faultAt 0] [faultAt 1000000] (by decide) (by decide)
    (latestAnomalies_single (by decide) (by decide))
    (latestAnomalies_single (by decide) (by decide)) "agv-1").mpr (by
      intro last found
      cases found
      decide)

/-- A late reading inserts an older anomaly after the page was opened, and the page shows it. -/
theorem latestAnomaly_late :
    ¬∀ (num : Numerals) (texts : Texts) (instant : String → Option Int) (rows : List Anomaly)
      (k : Nat) (snapshot final : List Anomaly),
      (∀ row ∈ rows, instant (texts.timestamp row.detectedAt) = some row.detectedAt) →
      (∀ row ∈ rows, instant (texts.isoformat row.detectedAt) = some row.detectedAt) →
      LatestAnomalies (inserted (rows.take k)) snapshot → LatestAnomalies (inserted rows) final →
      ∀ v, shownInstant instant (follow num texts snapshot (rows.drop k)) v =
        latestInstant final v := by
  intro all
  have agrees := all shortNumerals epochTexts epochInstant [faultAt 1000000, faultAt 0] 1
    [faultAt 1000000] [faultAt 1000000] (by decide) (by decide)
    (latestAnomalies_single (by decide) (by decide))
    (latestAnomalies_single (by decide) (by decide)) "agv-1"
  exact absurd agrees (by decide +kernel)

end FleetTelemetry.Dashboard
