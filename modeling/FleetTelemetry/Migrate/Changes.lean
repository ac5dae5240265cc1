import FleetTelemetry.Ingest.ZoneCounts
import FleetTelemetry.Migrate.Runner

/-!
# What the transactions of a call amount to

The listing a call works through, and its two transactions each as one change of the database:
the migrations put their names on record after their own changes, in order, and the seeds are
`seed_zones`. Neither the seeds nor telemetry lower a counter.
-/

namespace FleetTelemetry.Migrate

open Foundations

section Files

theorem mem_migrationFiles (directory : OrdMap String Script) (file : String × Script) :
    file ∈ migrationFiles directory ↔
      file ∈ directory.entries ∧ ".sql".toList <:+ file.1.toList := by
  simp [migrationFiles, List.mem_insertionSort]

/-- The files are examined in lexicographic order of their names, which are distinct. -/
theorem migrationFiles_ascending (directory : OrdMap String Script) :
    ((migrationFiles directory).map Prod.fst).Pairwise (· < ·) := by
  have ordered : ((migrationFiles directory).map Prod.fst).Pairwise (· ≤ ·) := by
    rw [List.pairwise_map]
    exact List.pairwise_insertionSort _ _
  -- no two files of one directory share a name
  have distinct : ((migrationFiles directory).map Prod.fst).Nodup := by
    have perm := (List.perm_insertionSort (fun file file' : String × Script => file.1 ≤ file'.1)
      (directory.entries.filter fun file => ".sql".toList.isSuffixOf file.1.toList)).map Prod.fst
    apply perm.nodup_iff.mpr
    exact directory.nodup.sublist (List.filter_sublist.map Prod.fst)
  exact ordered.imp₂ (fun _ _ le ne => lt_of_le_of_ne le ne) distinct

end Files

section Changes

/-- What a file leaves behind: its own change and its name on record. -/
def applyFile (db : Database) (file : String × SqlEffect) : Database :=
  insertVersion file.1 (file.2.change db)

/-- The migration transaction as one change of the database. -/
def applyFiles (executed : Executed) (db : Database) : Database :=
  executed.foldl applyFile (ensureTable db)

theorem applyFiles_snoc (executed : Executed) (file : String × SqlEffect) (db : Database) :
    applyFiles (executed ++ [file]) db =
      insertVersion file.1 (file.2.change (applyFiles executed db)) := by
  rw [applyFiles, List.foldl_append]
  rfl

theorem versions_applyFiles {executed : Executed} (contained : ∀ file ∈ executed, file.2.Contained)
    (db : Database) :
    (applyFiles executed db).versions = some (db.versions.getD [] ++ executed.map Prod.fst) := by
  induction executed using List.reverseRecOn with
  | nil => simp [applyFiles, ensureTable]
  | append_singleton executed file ih =>
    have before := ih fun file member => contained file (List.mem_append_left _ member)
    have same := (contained file (by simp)).versions (applyFiles executed db)
    rw [applyFiles_snoc, insertVersion, same, before]
    simp

theorem grownAt_applyFiles {executed : Executed} {zone : String}
    (keeps : ∀ file ∈ executed, file.2.KeepsCount zone) (db : Database) :
    GrownAt zone db.rows.zoneCounts (applyFiles executed db).rows.zoneCounts := by
  induction executed using List.reverseRecOn with
  | nil => exact .refl zone _
  | append_singleton executed file ih =>
    rw [applyFiles_snoc]
    exact (ih fun file member => keeps file (List.mem_append_left _ member)).trans
      (keeps file (by simp) (applyFiles executed db))

/-- The seeds sent so far as one change of the database. -/
def seedAll (seeded : List String) (db : Database) : Database :=
  seeded.foldl (fun db zone => seedZone zone db) db

theorem seedAll_snoc (seeded : List String) (zone : String) (db : Database) :
    seedAll (seeded ++ [zone]) db = seedZone zone (seedAll seeded db) := by
  rw [seedAll, List.foldl_append]
  rfl

theorem versions_seedAll (seeded : List String) (db : Database) :
    (seedAll seeded db).versions = db.versions := by
  induction seeded using List.reverseRecOn with
  | nil => rfl
  | append_singleton seeded zone ih =>
    rw [seedAll_snoc]
    exact ih

theorem mem_keys_seedZone (zone zone' : String) (db : Database) :
    zone' ∈ (seedZone zone db).rows.zoneCounts.keys ↔
      zone' = zone ∨ zone' ∈ db.rows.zoneCounts.keys := by
  rw [seedZone]
  dsimp only
  split
  next present =>
    rw [OrdMap.has_iff] at present
    constructor
    · exact Or.inr
    · rintro (rfl | known)
      · exact present
      · exact known
  next => exact OrdMap.mem_keys_set _ _ _ _

theorem seeded_has_row {seeded : List String} {zone : String} (member : zone ∈ seeded)
    (db : Database) : zone ∈ (seedAll seeded db).rows.zoneCounts.keys := by
  induction seeded using List.reverseRecOn with
  | nil => simp at member
  | append_singleton seeded last ih =>
    rw [seedAll_snoc, mem_keys_seedZone]
    rcases List.mem_append.mp member with earlier | here
    · exact .inr (ih earlier)
    · exact .inl (List.mem_singleton.mp here)

theorem grownAt_seedZone (zone zone' : String) (db : Database) :
    GrownAt zone' db.rows.zoneCounts (seedZone zone db).rows.zoneCounts := by
  intro n present
  refine ⟨n, ?_, le_refl n⟩
  rw [seedZone]
  dsimp only
  split
  · exact present
  -- the new row is of another zone, since this one has its row
  next absent =>
    have apart : zone' ≠ zone := by
      rintro rfl
      rw [OrdMap.has_iff, OrdMap.mem_keys_iff, present] at absent
      exact absent rfl
    rw [OrdMap.get?_set_of_ne _ _ _ _ apart, present]

theorem grownAt_seedAll (seeded : List String) (zone : String) (db : Database) :
    GrownAt zone db.rows.zoneCounts (seedAll seeded db).rows.zoneCounts := by
  induction seeded using List.reverseRecOn with
  | nil => exact .refl zone _
  | append_singleton seeded last ih =>
    rw [seedAll_snoc]
    exact ih.trans (grownAt_seedZone last zone _)

theorem grownAt_ingest (event : TelemetryEvent) (anomalies : List Firing) (zone : String)
    (db : Db) : GrownAt zone db.zoneCounts (ingest event anomalies db).zoneCounts := by
  intro n present
  refine ⟨_, Ingest.get?_countEntry event.zone db.zoneCounts zone present, ?_⟩
  split <;> omega

end Changes

end FleetTelemetry.Migrate
