import FleetTelemetry.Dashboard.Snapshots
import FleetTelemetry.Ingest.CommsLoss
import FleetTelemetry.Ingest.Serializable
import FleetTelemetry.Service.FaultHandling

/-!
# Querying the anomalies

`GET /anomalies` reads one vehicle's anomalies within an inclusive range, from any state that
has been committed. An answer given once holds for ever but for what is reported late: what a
later answer has in addition was detected within the range, by a reading or a sweep that
committed in between.
-/

namespace FleetTelemetry.Frontend

open Foundations
open Service (Event State ReachableWith assignsMission)
open Ingest (flag flags swept_logged)

def inRange (vehicleId : String) (since til : Int) (a : Anomaly) : Bool :=
  decide (a.vehicleId = vehicleId) && decide (since ≤ a.detectedAt) && decide (a.detectedAt ≤ til)

/-- The rows `recent_anomalies` may return: `ORDER BY detected_at` leaves the order of equal
timestamps open. -/
structure RecentAnomalies (db : Db) (vehicleId : String) (since til : Int)
    (rows : List Anomaly) : Prop where
  matching : rows.Perm (db.anomalies.filter (inRange vehicleId since til))
  ordered : rows.Pairwise fun a b => a.detectedAt ≤ b.detectedAt

def recentAnomalies (db : Db) (vehicleId : String) (since til : Int) : List Anomaly :=
  (db.anomalies.filter (inRange vehicleId since til)).mergeSort fun a b =>
    decide (a.detectedAt ≤ b.detectedAt)

theorem recentAnomalies_recent (db : Db) (vehicleId : String) (since til : Int) :
    RecentAnomalies db vehicleId since til (recentAnomalies db vehicleId since til) where
  matching := List.mergeSort_perm ..
  ordered := by
    refine (List.pairwise_mergeSort ?_ ?_ _).imp of_decide_eq_true
    · intro a b c
      simpa using Int.le_trans
    · intro a b
      simpa using Int.le_total a.detectedAt b.detectedAt

inductive AnomaliesResponse where
  | unprocessable
  | internalServerError
  | ok (rows : List Anomaly)

/-- A row that the driver cannot read back stands in the range. -/
def Unreadable (db : Db) (vehicleId : String) (since til : Int) : Prop :=
  ∃ a ∈ db.anomalies, inRange vehicleId since til a = true ∧ readable a.detectedAt = false

/-- What `get_anomalies` may answer; the driver refuses U+0000 in the vehicle's id. -/
inductive GetAnomalies (db : Db) (vehicleId : String) (since til : Int) :
    AnomaliesResponse → Prop
  | unprocessable (empty : vehicleId.length < 1) :
      GetAnomalies db vehicleId since til .unprocessable
  | internalServerError (named : 1 ≤ vehicleId.length)
      (raises : hasNul vehicleId = true ∨ Unreadable db vehicleId since til) :
      GetAnomalies db vehicleId since til .internalServerError
  | ok (named : 1 ≤ vehicleId.length) (clean : hasNul vehicleId = false)
      (years : ¬Unreadable db vehicleId since til) {rows : List Anomaly}
      (recent : RecentAnomalies db vehicleId since til rows) :
      GetAnomalies db vehicleId since til (.ok rows)

/-- The call of the event has reported the anomaly: a rule fired for the reading next to the
prior one it had read, or the sweep flagged the vehicle. -/
inductive ReportedBy : Event → Anomaly → Prop
  | reading {event prior fired rest reply before after firing}
      (detected : detectAnomalies event prior = .ok fired) (fires : firing ∈ fired) :
      ReportedBy (.returned (.postTelemetry event) (⟨.selectPrior event.vehicleId, prior⟩ :: rest)
        reply before after) (event.anomaly firing)
  | silence {now seen answered reply before after vehicleId}
      (appended : after.anomalies = before.anomalies ++ flags now seen)
      (silent : vehicleId ∈ silentVehicles (now - commsLossTimeoutMicros) seen) :
      ReportedBy (.returned (.sweep now) answered reply before after) (flag now vehicleId)

section Runs

variable {db : Db} {s : State}

/-- What a logged event adds to the anomalies. -/
theorem anomalies_logged (reached : ReachableWith assignsMission db s) {e : Event}
    (logged : e ∈ s.log) : ∃ added, e.after.anomalies = e.before.anomalies ++ added ∧
      ∀ a ∈ added, ReportedBy e a := by
  have unchanged : ∀ {as : List Anomaly}, as = as ++ [] ∧ ∀ a ∈ ([] : List Anomaly),
      ReportedBy e a := ⟨(List.append_nil _).symm, nofun⟩
  have explained := ReachableWith.explained agree_assignsMission reached e logged
  -- only an ingest and a sweep append to the table
  cases e with
  | raised call error state => exact ⟨[], unchanged⟩
  | outside before after =>
    obtain ⟨_, id, m, _, _, _, rfl, _⟩ := explained
    exact ⟨[], unchanged⟩
  | returned call answered reply before after =>
    cases explained with
    | ingested _ detected =>
      refine ⟨_, rfl, fun a member => ?_⟩
      obtain ⟨firing, fires, rfl⟩ := List.mem_map.mp member
      exact .reading detected fires
    | @swept now =>
      -- a sweep flags by a snapshot that may be older than the state it commits to
      obtain ⟨seen, appended⟩ := swept_logged reached logged
      have grown := congrArg Db.anomalies appended
      refine ⟨flags now seen, grown, fun a member => ?_⟩
      obtain ⟨v, silent, rfl⟩ := List.mem_map.mp member
      exact .silence grown silent
    | alreadyInFault | enteredFault | unmatched | updated => exact ⟨[], unchanged⟩

theorem anomalies_between (reached : ReachableWith assignsMission db s) {n m : Nat}
    (order : n ≤ m) : ∃ added,
      (committed db (s.log.take m)).anomalies = (committed db (s.log.take n)).anomalies ++ added ∧
      ∀ a ∈ added, ∃ e ∈ (s.log.take m).drop n, ReportedBy e a := by
  refine Chain.invariant
    (fun log db' => ∃ added,
      db'.anomalies = (committed db (s.log.take n)).anomalies ++ added ∧
      ∀ a ∈ added, ∃ e ∈ log, ReportedBy e a)
    (fun e => e ∈ s.log) (Chain.between (Foundations.Reachable.chain reached) order) ?_ ?_ ?_
  · exact fun e logged => List.mem_of_mem_take (List.mem_of_mem_drop logged)
  · exact ⟨[], (List.append_nil _).symm, nofun⟩
  -- each event in between adds rows of its own behind those before
  · rintro log e logged ⟨earlier, grown, reported⟩
    obtain ⟨added, new, reporting⟩ := anomalies_logged reached logged
    refine ⟨earlier ++ added, by rw [new, grown, List.append_assoc], ?_⟩
    intro a member
    rcases List.mem_append.mp member with old | now
    · obtain ⟨e', before, by_e'⟩ := reported a old
      exact ⟨e', List.mem_append_left _ before, by_e'⟩
    · exact ⟨e, by simp, reporting a now⟩

theorem mem_inRange {vehicleId : String} {since til : Int} {as : List Anomaly} {a : Anomaly} :
    a ∈ as.filter (inRange vehicleId since til) ↔
      a ∈ as ∧ a.vehicleId = vehicleId ∧ since ≤ a.detectedAt ∧ a.detectedAt ≤ til := by
  simp [inRange, and_assoc]

/-- The same request, answered from two states of a run: refused the same way, or refused
over a row that was reported in between and cannot be read back, or the later answer has the
earlier one and what was reported of the range in between. -/
theorem getAnomalies_between (db : Db) (s : State) (reached : ReachableWith assignsMission db s)
    (n m : Nat) (order : n ≤ m) (vehicleId : String) (since til : Int)
    (response response' : AnomaliesResponse)
    (early : GetAnomalies (committed db (s.log.take n)) vehicleId since til response)
    (late : GetAnomalies (committed db (s.log.take m)) vehicleId since til response') :
    (response' = response ∧ ∀ rows, response ≠ .ok rows) ∨
    (response' = .internalServerError ∧ ∃ a, readable a.detectedAt = false ∧
      a.vehicleId = vehicleId ∧ since ≤ a.detectedAt ∧ a.detectedAt ≤ til ∧
      ∃ e ∈ (s.log.take m).drop n, ReportedBy e a) ∨
    ∃ rows rows' added, response = .ok rows ∧ response' = .ok rows' ∧
      rows'.Perm (rows ++ added) ∧ rows'.Pairwise (fun a b => a.detectedAt ≤ b.detectedAt) ∧
      ∀ a ∈ added, a.vehicleId = vehicleId ∧ since ≤ a.detectedAt ∧ a.detectedAt ≤ til ∧
        ∃ e ∈ (s.log.take m).drop n, ReportedBy e a := by
  obtain ⟨added, grown, reported⟩ := anomalies_between reached order
  cases early with
  | unprocessable empty =>
    cases late with
    | unprocessable => exact .inl ⟨rfl, nofun⟩
    | internalServerError named | ok named => omega
  | internalServerError named raises =>
    cases late with
    | unprocessable => omega
    | internalServerError => exact .inl ⟨rfl, nofun⟩
    | ok _ clean years =>
      -- no row is ever deleted, so what could not be read still cannot
      rcases raises with nul | ⟨a, stored, within, unreadable⟩
      · rw [nul] at clean
        cases clean
      · refine (years ⟨a, ?_, within, unreadable⟩).elim
        rw [grown]
        exact List.mem_append_left _ stored
  | @ok named clean years rows recent =>
    cases late with
    | unprocessable => omega
    | internalServerError _ raises =>
      rcases raises with nul | ⟨a, stored, within, unreadable⟩
      · rw [clean] at nul
        cases nul
      · rw [grown, List.mem_append] at stored
        have new : a ∈ added :=
          stored.resolve_left fun old => years ⟨a, old, within, unreadable⟩
        obtain ⟨_, same, after, before⟩ := mem_inRange.mp (List.mem_filter.mpr ⟨new, within⟩)
        exact .inr (.inl ⟨rfl, a, unreadable, same, after, before, reported a new⟩)
    | @ok _ _ _ rows' recent' =>
      refine .inr (.inr ⟨rows, rows', added.filter (inRange vehicleId since til), rfl, rfl, ?_,
        recent'.ordered, ?_⟩)
      · have matching := recent'.matching
        rw [grown, List.filter_append] at matching
        exact matching.trans (recent.matching.symm.append_right _)
      · intro a member
        obtain ⟨new, same, after, before⟩ := mem_inRange.mp member
        exact ⟨same, after, before, reported a new⟩

end Runs

/-- Nothing before the run, and after it the silence that a sweep has found. -/
theorem getAnomalies_between_silence : ∃ s, ReachableWith assignsMission Db.seeded s ∧
    ∃ rows, GetAnomalies (committed Db.seeded (s.log.take s.log.length)) "agv-1" 0 9000000
        (.ok rows) ∧ rows.length = 1 ∧ ∀ a ∈ rows, ∃ e ∈ s.log, ReportedBy e a := by
  obtain ⟨s, reached, found⟩ := Service.exists_reachable assignsMission [0] Db.seeded
    [.begin 0 (.postTelemetry Ingest.battery40), .advance 0, .advance 0, .advance 0, .advance 0,
      -- the reading is at zero, so after nine seconds the sweep finds the vehicle silent
      .begin 0 (.sweep 9000000), .advance 0, .advance 0]
    (fun s => decide ((s.db.anomalies.filter (inRange "agv-1" 0 9000000)).length = 1) &&
      s.db.anomalies.all fun a => readable a.detectedAt)
    (by decide +kernel)
  rw [Bool.and_eq_true, decide_eq_true_eq, List.all_eq_true] at found
  have final : committed Db.seeded (s.log.take s.log.length) = s.db := by
    rw [List.take_length]
    exact (Foundations.Reachable.chain reached).committed_eq
  have early : GetAnomalies (committed Db.seeded (s.log.take 0)) "agv-1" 0 9000000 (.ok []) :=
    .ok (by decide) (by decide) (fun ⟨_, stored, _⟩ => nomatch stored) ⟨.nil, .nil⟩
  have recent := recentAnomalies_recent s.db "agv-1" 0 9000000
  have late : GetAnomalies (committed Db.seeded (s.log.take s.log.length)) "agv-1" 0 9000000
      (.ok (recentAnomalies s.db "agv-1" 0 9000000)) := by
    rw [final]
    refine .ok (by decide) (by decide) ?_ recent
    rintro ⟨a, stored, _, unreadable⟩
    rw [found.2 a stored] at unreadable
    cases unreadable
  rcases getAnomalies_between Db.seeded s reached 0 s.log.length (Nat.zero_le _) "agv-1" 0 9000000
    _ _ early late with
    ⟨_, refused⟩ | ⟨failed, _⟩ | ⟨rows, rows', added, first, second, grown, _, reported⟩
  · exact (refused [] rfl).elim
  · cases failed
  · cases first
    cases second
    refine ⟨s, reached, _, late, recent.matching.length_eq.trans found.1, ?_⟩
    intro a member
    obtain ⟨_, _, _, e, logged, by_e⟩ := reported a (grown.subset member)
    rw [List.take_length, List.drop_zero] at logged
    exact ⟨e, logged, by_e⟩

end FleetTelemetry.Frontend
