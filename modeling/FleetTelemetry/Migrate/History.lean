import FleetTelemetry.Migrate.Changes
import FleetTelemetry.Service.Registration

/-!
# The history of the migrations

What any number of calls has done to the database, whichever of their statements failed and
whatever telemetry was committed in between. The names on record are those of the files whose
SQL is committed, in the order of their commits, and also those of all files a committed call
has listed. The files may hold any SQL that stays inside its transaction and leaves
`schema_migrations` alone; the runner checks neither.
-/

namespace FleetTelemetry.Migrate

open Foundations

section Promise

/-- The names of the files whose SQL the log says is committed, in the order of the commits. -/
def committedNames (log : List Outcome) : List String :=
  log.flatMap fun
    | .migrated executed _ _ _ => executed.map Prod.fst
    | _ => []

/-- The names that a call whose migrations were committed has listed. -/
def seenNames (log : List Outcome) : List String :=
  log.flatMap fun
    | .migrated _ seen _ _ => seen
    | _ => []

theorem committedNames_snoc (log : List Outcome) (o : Outcome) :
    committedNames (log ++ [o]) = committedNames log ++ committedNames [o] :=
  List.flatMap_append

theorem seenNames_snoc (log : List Outcome) (o : Outcome) :
    seenNames (log ++ [o]) = seenNames log ++ seenNames [o] :=
  List.flatMap_append

section Migrations

variable (log : List Outcome) (executed : Executed) (seen : List String) (before after : Database)

theorem committedNames_migrated :
    committedNames (log ++ [.migrated executed seen before after]) =
      committedNames log ++ executed.map Prod.fst := by
  rw [committedNames_snoc]
  exact congrArg (committedNames log ++ ·) (List.flatMap_singleton _ _)

theorem seenNames_migrated :
    seenNames (log ++ [.migrated executed seen before after]) = seenNames log ++ seen := by
  rw [seenNames_snoc]
  exact congrArg (seenNames log ++ ·) (List.flatMap_singleton _ _)

end Migrations

/-- What holds of an outcome, given the outcomes before it. -/
def Kept (earlier : List Outcome) : Outcome → Prop
  -- the files not on record, in order, are what the transaction amounts to
  | .migrated executed seen before after =>
    seen.Pairwise (· < ·) ∧
    executed.map Prod.fst = seen.filter (fun name => name ∉ committedNames earlier) ∧
    after = applyFiles executed before
  | .failed before after => after.schema = before.schema ∧ after.versions = before.versions
  | .raised => True
  | .returned applied executed before after =>
    (∃ log seen mid mid', earlier = log ++ [.migrated executed seen mid mid']) ∧
    applied = executed.map Prod.fst ∧
    (∃ versions, after.versions = some versions ∧ versions.Nodup ∧
      ∀ name, name ∈ versions ↔ name ∈ seenNames earlier) ∧
    (∀ zone ∈ zones, after.rows.zoneCounts.keys.count zone = 1) ∧
    ∀ zone, (∀ file ∈ executed, file.2.KeepsCount zone) →
      GrownAt zone before.rows.zoneCounts after.rows.zoneCounts

end Promise

namespace Runner

section Invariant

/-- The call has changed neither the schema nor the names on record. -/
def Unchanged (s : Runner) : Prop :=
  s.db.schema = s.begun.schema ∧ s.db.versions = s.begun.versions

/-- The loop over the files: which of them have been examined, and which are still to come. -/
structure Looping (log : List Outcome) (seen : List String) (executed : Executed)
    (done examined : List String) (rest : List (String × Script)) : Prop where
  onRecord : done = committedNames log
  listed : seen = examined ++ rest.map Prod.fst
  ascending : seen.Pairwise (· < ·)
  pending : executed.map Prod.fst = examined.filter fun name => name ∉ done
  contained : ∀ file ∈ executed, file.2.Contained
  scripts : ∀ file ∈ rest, file.2.Contained

/-- The call's migrations are committed. -/
structure Migrated (s : Runner) : Prop where
  last : ∃ log seen mid mid', s.log = log ++ [.migrated s.executed seen mid mid']
  applied : s.applied = s.executed.map Prod.fst
  versions : s.db.versions.isSome

/-- What holds before the statement of each phase. -/
def Before (s : Runner) : Phase → Prop
  | .idle => True
  | .ensureTable => s.Unchanged ∧ s.executed = [] ∧ s.applied = []
  | .selectVersions =>
    s.Unchanged ∧ s.executed = [] ∧ s.applied = [] ∧ s.change = Migrate.ensureTable
  | .listFiles done =>
    s.Unchanged ∧ s.executed = [] ∧ s.applied = [] ∧ s.change = Migrate.ensureTable ∧
      done = committedNames s.log
  | .nextFile done rest =>
    s.Unchanged ∧ ∃ examined, Looping s.log s.seen s.executed done examined rest ∧
      s.applied = s.executed.map Prod.fst ∧ s.change = applyFiles s.executed
  -- the last file is executed, but not on record yet
  | .insertVersion done version rest =>
    s.Unchanged ∧ ∃ examined, Looping s.log s.seen s.executed done examined rest ∧
      ∃ executed effect, s.executed = executed ++ [(version, effect)] ∧
        s.applied = executed.map Prod.fst ∧
        s.change = fun db => effect.change (applyFiles executed db)
  | .seedZones => s.Migrated
  | .seedZone rest => s.Migrated ∧ ∃ seeded, zones = seeded ++ rest ∧ s.change = seedAll seeded

structure Consistent (s : Runner) : Prop where
  directory : ∀ file ∈ s.directory.entries, file.2.Contained
  versions : s.db.versions.getD [] = committedNames s.log
  nodup : (committedNames s.log).Nodup
  seen : ∀ name, name ∈ committedNames s.log ↔ name ∈ seenNames s.log
  counts : ∀ zone, (∀ file ∈ s.executed, file.2.KeepsCount zone) →
    GrownAt zone s.begun.rows.zoneCounts s.db.rows.zoneCounts
  kept : ∀ earlier o later, s.log = earlier ++ o :: later → Kept earlier o
  phase : s.Before s.phase

variable {s s' : Runner}

/-- What holds before a statement only speaks of the call and of what the database has on
record. -/
theorem Before.frame {p : Phase} (before : s.Before p) (schema : s'.db.schema = s.db.schema)
    (versions : s'.db.versions = s.db.versions) (begun : s'.begun = s.begun)
    (change : s'.change = s.change) (applied : s'.applied = s.applied)
    (executed : s'.executed = s.executed) (seen : s'.seen = s.seen) (log : s'.log = s.log) :
    s'.Before p := by
  -- both facts only look at fields that are the same in the two states
  have unchanged : s.Unchanged → s'.Unchanged := by
    rintro ⟨same, same'⟩
    exact ⟨by rw [schema, begun, same], by rw [versions, begun, same']⟩
  have migrated : s.Migrated → s'.Migrated := by
    rintro ⟨last, names, present⟩
    exact ⟨by rwa [log, executed], by rw [applied, executed, names], by rwa [versions]⟩
  cases p with
  | idle => trivial
  | ensureTable | selectVersions | listFiles | nextFile | insertVersion =>
    obtain ⟨same, call⟩ := before
    refine ⟨unchanged same, ?_⟩
    simp only [executed, applied, change, seen, log]
    exact call
  | seedZones => exact migrated before
  | seedZone rest =>
    obtain ⟨committed, seeds⟩ := before
    exact ⟨migrated committed, by rwa [change]⟩

/-- Logging an outcome that is as promised. -/
theorem kept_snoc {log : List Outcome} {o : Outcome}
    (kept : ∀ earlier o later, log = earlier ++ o :: later → Kept earlier o) (last : Kept log o) :
    ∀ earlier o' later, log ++ [o] = earlier ++ o' :: later → Kept earlier o' := by
  intro earlier o' later same
  -- it is the new outcome, or one of those before it
  cases later using List.reverseRecOn with
  | nil =>
    obtain ⟨rfl, rfl⟩ : log = earlier ∧ o = o' := by simpa using same
    exact last
  | append_singleton later o'' =>
    have apart : log ++ [o] = (earlier ++ o' :: later) ++ [o''] := by simpa using same
    exact kept earlier o' later (List.append_inj' apart rfl).1

end Invariant

section Actions

variable {s s' : Runner}

theorem consistent_start (schema : Schema) (rows : Db) : (start schema rows).Consistent where
  directory := by simp [start, OrdMap.empty]
  versions := rfl
  nodup := List.nodup_nil
  seen := by simp [start, committedNames, seenNames]
  counts := fun zone _ => .refl zone _
  kept := by simp [start]
  phase := trivial

theorem consistent_gain (consistent : s.Consistent) {name : String} {script : Script}
    (contained : script.Contained) (gained : s.gain name script = some s') : s'.Consistent := by
  unfold gain at gained
  split at gained
  · cases gained
  -- a file appears under a name that is not taken, behind the others
  next fresh =>
    cases gained
    refine { consistent with directory := ?_, phase := ?_ }
    · intro file member
      rw [OrdMap.has_iff] at fresh
      rw [OrdMap.entries_set, if_neg fresh] at member
      rcases List.mem_append.mp member with known | new
      · exact consistent.directory file known
      · rw [List.mem_singleton.mp new]
        exact contained
    · exact consistent.phase.frame rfl rfl rfl rfl rfl rfl rfl rfl

theorem consistent_telemetry (consistent : s.Consistent) {event : TelemetryEvent}
    {prior : Option CurrentState} (served : s.telemetry event prior = some s') :
    s'.Consistent := by
  unfold telemetry at served
  split at served
  · cases served
  next anomalies detected =>
    split at served
    · cases served
      refine { consistent with counts := ?_, phase := ?_ }
      · intro zone keeps
        exact (consistent.counts zone keeps).trans (grownAt_ingest event anomalies zone _)
      · exact consistent.phase.frame rfl rfl rfl rfl rfl rfl rfl rfl
    · cases served

theorem consistent_call (consistent : s.Consistent) (called : s.call = some s') :
    s'.Consistent := by
  unfold call at called
  split at called
  · cases called
    exact { consistent with
      counts := fun zone _ => .refl zone _
      phase := ⟨⟨rfl, rfl⟩, rfl, rfl⟩ }
  · cases called

/-- An outcome that commits no file ends the call. -/
theorem Consistent.ended (consistent : s.Consistent) {o : Outcome} {db : Database}
    (none_committed : committedNames [o] = []) (none_seen : seenNames [o] = [])
    (versions : db.versions = s.db.versions)
    (counts : ∀ zone, GrownAt zone s.db.rows.zoneCounts db.rows.zoneCounts)
    (kept : Kept s.log o) :
    Consistent { s with phase := .idle, db := db, log := s.log ++ [o] } where
  directory := consistent.directory
  -- the outcome commits no version, so what is on record is what was
  versions := by
    rw [committedNames_snoc, none_committed, List.append_nil, versions]
    exact consistent.versions
  nodup := by
    rw [committedNames_snoc, none_committed, List.append_nil]
    exact consistent.nodup
  seen := by
    rw [committedNames_snoc, none_committed, seenNames_snoc, none_seen, List.append_nil,
      List.append_nil]
    exact consistent.seen
  counts := fun zone keeps => (consistent.counts zone keeps).trans (counts zone)
  kept := kept_snoc consistent.kept kept
  phase := trivial

theorem consistent_fail (consistent : s.Consistent) (failed : s.fail = some s') :
    s'.Consistent := by
  -- before the commit of the migrations a rollback leaves what was there when the call began
  have rolledBack (unchanged : s.Unchanged) :
      Consistent { s with phase := .idle, log := s.log ++ [.failed s.begun s.db] } :=
    consistent.ended rfl rfl rfl (fun zone => .refl zone _) unchanged
  have raised : Consistent { s with phase := .idle, log := s.log ++ [.raised] } :=
    consistent.ended rfl rfl rfl (fun zone => .refl zone _) trivial
  have before := consistent.phase
  unfold fail at failed
  cases phase : s.phase with
  | idle =>
    rw [phase] at failed
    cases failed
  | ensureTable | selectVersions | listFiles | nextFile | insertVersion =>
    rw [phase] at failed before
    cases failed
    exact rolledBack before.1
  | seedZones | seedZone =>
    rw [phase] at failed
    cases failed
    exact raised

end Actions

section Statements

variable {log : List Outcome} {seen done examined : List String} {executed : Executed}
  {version : String} {script : Script} {rest : List (String × Script)}

theorem Looping.listed_all {directory : OrdMap String Script}
    (onRecord : done = committedNames log)
    (contained : ∀ file ∈ directory.entries, file.2.Contained) :
    Looping log ((migrationFiles directory).map Prod.fst) [] done []
      (migrationFiles directory) where
  onRecord := onRecord
  listed := rfl
  ascending := migrationFiles_ascending directory
  pending := rfl
  contained := by simp
  scripts := fun file member => contained file ((mem_migrationFiles directory file).mp member).1

theorem Looping.pass (loop : Looping log seen executed done examined ((version, script) :: rest))
    (known : version ∈ done) : Looping log seen executed done (examined ++ [version]) rest where
  onRecord := loop.onRecord
  listed := by simpa using loop.listed
  ascending := loop.ascending
  pending := by
    rw [loop.pending, List.filter_append]
    simp [known]
  contained := loop.contained
  scripts := fun file member => loop.scripts file (List.mem_cons_of_mem _ member)

theorem Looping.execute
    (loop : Looping log seen executed done examined ((version, script) :: rest))
    (missing : version ∉ done) {effect : SqlEffect} (contained : effect.Contained) :
    Looping log seen (executed ++ [(version, effect)]) done (examined ++ [version]) rest where
  onRecord := loop.onRecord
  listed := by simpa using loop.listed
  ascending := loop.ascending
  -- the file is executed because its version was missing, so it is pending
  pending := by
    rw [List.map_append, loop.pending, List.filter_append]
    simp [missing]
  contained := by
    intro file member
    rcases List.mem_append.mp member with earlier | here
    · exact loop.contained file earlier
    · rw [List.mem_singleton.mp here]
      exact contained
  scripts := fun file member => loop.scripts file (List.mem_cons_of_mem _ member)

variable {s s' : Runner}

theorem consistent_nextFile (consistent : s.Consistent)
    (before : s.Before (.nextFile done ((version, script) :: rest)))
    (sent : s.nextFile done version script rest = some s') : s'.Consistent := by
  obtain ⟨unchanged, examined, loop, applied, change⟩ := before
  unfold nextFile at sent
  split at sent
  -- on record: the loop goes on with the next file
  next known =>
    cases sent
    exact { consistent with phase := ⟨unchanged, _, loop.pass known, applied, change⟩ }
  next missing =>
    obtain ⟨effect, ran, rfl⟩ := Option.map_eq_some_iff.mp sent
    have contained := loop.scripts (version, script) List.mem_cons_self _ _ ran
    -- the SQL has not committed, so its change is still pending
    simp only [contained.open_transaction, Bool.false_eq_true, if_false]
    refine { consistent with counts := ?_, phase := ?_ }
    · intro zone keeps
      exact consistent.counts zone fun file member => keeps file (List.mem_append_left _ member)
    · exact ⟨unchanged, _, loop.execute missing contained, _, effect, rfl, applied, by rw [change]⟩

theorem consistent_recordVersion (consistent : s.Consistent)
    (before : s.Before (.insertVersion done version rest))
    (sent : s.recordVersion done version rest = some s') : s'.Consistent := by
  obtain ⟨unchanged, examined, loop, executed, effect, last, applied, change⟩ := before
  unfold recordVersion at sent
  split at sent
  · cases sent
  next versions present =>
    split at sent
    · cases sent
    · cases sent
      refine { consistent with phase := ⟨unchanged, examined, loop, ?_, ?_⟩ }
      -- what was pending is now the change of one file more, with its name on record
      · simp [applied, last]
      · funext db
        dsimp only
        rw [last, applyFiles_snoc, change]

/-- The new names are none of those on record, and the directory holds each of them once. -/
theorem Looping.nodup (loop : Looping log seen executed done examined [])
    (nodup : (committedNames log).Nodup) :
    (committedNames log ++ executed.map Prod.fst).Nodup := by
  have listed : seen = examined := by simpa using loop.listed
  have distinct : examined.Nodup := listed ▸ loop.ascending.imp ne_of_lt
  rw [loop.pending, loop.onRecord]
  apply List.nodup_append.mpr
  refine ⟨nodup, distinct.filter _, ?_⟩
  rintro name known _ new rfl
  simp [known] at new

/-- Whatever the call has listed is on record after its commit. -/
theorem Looping.mem_iff (loop : Looping log seen executed done examined [])
    (before : ∀ name, name ∈ committedNames log ↔ name ∈ seenNames log) (name : String) :
    name ∈ committedNames log ++ executed.map Prod.fst ↔ name ∈ seenNames log ++ seen := by
  have listed : seen = examined := by simpa using loop.listed
  rw [loop.pending, loop.onRecord, listed, List.mem_append, List.mem_append, ← before name]
  by_cases known : name ∈ committedNames log <;> simp [known]

/-- The commit of the migration transaction. -/
theorem consistent_commit (consistent : s.Consistent) (before : s.Before (.nextFile done [])) :
    Consistent { s with
      phase := .seedZones
      db := s.change s.db
      log := s.log ++ [.migrated s.executed s.seen s.db (s.change s.db)] } := by
  obtain ⟨unchanged, examined, loop, applied, change⟩ := before
  -- the versions are recorded in this transaction, with the changes they stand for
  have versions : (s.change s.db).versions =
      some (committedNames s.log ++ s.executed.map Prod.fst) := by
    rw [change, versions_applyFiles loop.contained, consistent.versions]
  have last : Kept s.log (.migrated s.executed s.seen s.db (s.change s.db)) := by
    have listed : s.seen = examined := by simpa using loop.listed
    refine ⟨loop.ascending, ?_, congrFun change s.db⟩
    rw [loop.pending, listed, loop.onRecord]
  refine
    { directory := consistent.directory, versions := ?_, nodup := ?_, seen := ?_, counts := ?_,
      kept := kept_snoc consistent.kept last, phase := ?_ }
  · dsimp only
    rw [versions, committedNames_migrated]
    rfl
  · dsimp only
    rw [committedNames_migrated]
    exact loop.nodup consistent.nodup
  · dsimp only
    rw [committedNames_migrated, seenNames_migrated]
    exact loop.mem_iff consistent.seen
  -- the files of this call leave the counter or raise it
  · intro zone keeps
    refine (consistent.counts zone keeps).trans ?_
    dsimp only
    rw [change]
    exact grownAt_applyFiles keeps s.db
  · exact ⟨⟨s.log, s.seen, s.db, s.change s.db, rfl⟩, applied, by simp [versions]⟩

/-- The commit of the seeds, and the return of the call. -/
theorem consistent_return (consistent : s.Consistent) (before : s.Before (.seedZone [])) :
    Consistent { s with
      phase := .idle
      db := s.change s.db
      log := s.log ++ [.returned s.applied s.executed s.begun (s.change s.db)] } := by
  obtain ⟨migrated, seeded, all, change⟩ := before
  -- no zone is left to seed
  obtain rfl : zones = seeded := by simpa using all
  have versions : (s.change s.db).versions = s.db.versions := by rw [change, versions_seedAll]
  have grown (zone : String) :
      GrownAt zone s.db.rows.zoneCounts (s.change s.db).rows.zoneCounts := by
    rw [change]
    exact grownAt_seedAll zones zone s.db
  refine consistent.ended rfl rfl versions grown ⟨migrated.last, migrated.applied, ?_, ?_, ?_⟩
  -- the seeds leave the names on record alone
  · obtain ⟨names, present⟩ := Option.isSome_iff_exists.mp migrated.versions
    have onRecord : names = committedNames s.log := by
      rw [← consistent.versions, present]
      rfl
    exact ⟨names, by rw [versions, present], onRecord ▸ consistent.nodup,
      onRecord ▸ consistent.seen⟩
  · intro zone known
    apply List.count_eq_one_of_mem (OrdMap.keys_nodup _)
    rw [change]
    exact seeded_has_row known s.db
  · intro zone keeps
    exact (consistent.counts zone keeps).trans (grown zone)

theorem consistent_selectVersions (consistent : s.Consistent) (before : s.Before .selectVersions)
    (selected : (s.change s.db).versions = some done) :
    Consistent { s with phase := .listFiles done } := by
  obtain ⟨unchanged, executed, applied, change⟩ := before
  rw [change, Migrate.ensureTable, Option.some.injEq] at selected
  have onRecord := selected.symm.trans consistent.versions
  exact { consistent with phase := ⟨unchanged, executed, applied, change, onRecord⟩ }

theorem consistent_listFiles (consistent : s.Consistent) (before : s.Before (.listFiles done)) :
    Consistent { s with
      phase := .nextFile done (migrationFiles s.directory)
      seen := (migrationFiles s.directory).map Prod.fst } := by
  obtain ⟨unchanged, executed, applied, change, onRecord⟩ := before
  have loop := Looping.listed_all onRecord consistent.directory
  rw [← executed] at loop
  refine { consistent with phase := ⟨unchanged, [], loop, ?_, ?_⟩ }
  · rw [applied, executed, List.map_nil]
  · rw [change, executed]
    rfl

theorem consistent_seedZone (consistent : s.Consistent) {zone : String} {rest : List String}
    (before : s.Before (.seedZone (zone :: rest))) :
    Consistent { s with
      phase := .seedZone rest
      change := fun db => Migrate.seedZone zone (s.change db) } := by
  obtain ⟨migrated, seeded, all, change⟩ := before
  have all' : zones = (seeded ++ [zone]) ++ rest := by simp [all]
  have change' : (fun db => Migrate.seedZone zone (s.change db)) = seedAll (seeded ++ [zone]) := by
    funext db
    rw [seedAll_snoc, change]
  exact { consistent with
    phase := ⟨⟨migrated.last, migrated.applied, migrated.versions⟩, _, all', change'⟩ }

theorem consistent_advance (consistent : s.Consistent) (sent : s.advance = some s') :
    s'.Consistent := by
  have before := consistent.phase
  unfold advance at sent
  -- each statement of the call is in one phase, with its own account of what is done
  cases phase : s.phase with
  | idle =>
    rw [phase] at sent
    cases sent
  | ensureTable =>
    rw [phase] at sent before
    cases sent
    obtain ⟨unchanged, executed, applied⟩ := before
    exact { consistent with phase := ⟨unchanged, executed, applied, rfl⟩ }
  | selectVersions =>
    rw [phase] at sent before
    obtain ⟨done, selected, rfl⟩ := Option.map_eq_some_iff.mp sent
    exact consistent_selectVersions consistent before selected
  | listFiles done =>
    rw [phase] at sent before
    cases sent
    exact consistent_listFiles consistent before
  | nextFile done files =>
    rw [phase] at sent before
    cases files with
    | nil =>
      cases sent
      exact consistent_commit consistent before
    | cons file rest => exact consistent_nextFile consistent before sent
  | insertVersion done version rest =>
    rw [phase] at sent before
    exact consistent_recordVersion consistent before sent
  | seedZones =>
    rw [phase] at sent before
    cases sent
    -- from here on the change is that of the seeds alone
    have migrated : s.Migrated := before
    exact { consistent with
      phase := ⟨⟨migrated.last, migrated.applied, migrated.versions⟩, [], rfl, rfl⟩ }
  | seedZone rest =>
    rw [phase] at sent before
    cases rest with
    | nil =>
      cases sent
      exact consistent_return consistent before
    | cons zone rest =>
      dsimp only at sent
      split at sent
      · cases sent
        exact consistent_seedZone consistent before
      · cases sent

end Statements

theorem consistent_run {schema : Schema} {rows : Db} {acts : List Action} {s : Runner}
    (contained : ∀ name script, .gain name script ∈ acts → script.Contained)
    (reached : Machine.run step (start schema rows) acts = some s) : s.Consistent := by
  revert contained
  refine Machine.run_invariant
    (P := fun acts s => (∀ name script, .gain name script ∈ acts → script.Contained) → s.Consistent)
    (fun _ => consistent_start schema rows) ?_ reached
  intro acts a mid s' holds performed contained
  -- the files gained by the steps before are among those of the run
  have consistent := holds fun name script member =>
    contained name script (List.mem_append_left _ member)
  cases a with
  | gain name script => exact consistent_gain consistent (contained name script (by simp)) performed
  | telemetry event prior => exact consistent_telemetry consistent performed
  | call => exact consistent_call consistent performed
  | advance => exact consistent_advance consistent performed
  | fail => exact consistent_fail consistent performed

end Runner

/-- However its calls fail and whatever is committed in between, the runner commits a file at
most once, and every outcome of its calls is as promised. -/
theorem migrations_kept (schema : Schema) (rows : Db) (acts : List Action)
    (contained : ∀ name script, .gain name script ∈ acts → script.Contained) (s : Runner)
    (reached : Machine.run Runner.step (.start schema rows) acts = some s) :
    (committedNames s.log).Nodup ∧
    ∀ earlier o later, s.log = earlier ++ o :: later → Kept earlier o := by
  have consistent := Runner.consistent_run contained reached
  exact ⟨consistent.nodup, consistent.kept⟩

section Runs

def gains (files : List (String × List Ddl)) : List Action :=
  files.map fun file => .gain file.1 (ddl file.2)

theorem gains_contained {files : List (String × List Ddl)} {name : String} {script : Script}
    (gained : .gain name script ∈ gains files) : script.Contained := by
  obtain ⟨file, _, same⟩ := List.mem_map.mp gained
  cases same
  exact ddl_contained file.2

/-- A call that gets as far as the given number of statements and commits. -/
def callFor (statements : Nat) : List Action := .call :: List.replicate statements .advance

/-- The first call breaks off, the second deploys the shipped files, and the third finds
nothing to do after a vehicle has entered a zone. -/
def redeployed : List Action :=
  gains (shippedFiles.take 5) ++ callFor 10 ++ [.fail] ++ gains (shippedFiles.drop 5) ++
    callFor 44 ++ [.telemetry faultTick none] ++ callFor 35

theorem migrations_kept_redeployed :
    ∃ s, Machine.run Runner.step (.start .empty .migrated) redeployed = some s ∧
      (committedNames s.log).Nodup ∧
      ∀ earlier o later, s.log = earlier ++ o :: later → Kept earlier o := by
  have performed :
      (Machine.run Runner.step (.start .empty .migrated) redeployed).isSome := by
    decide +kernel
  obtain ⟨s, reached⟩ := Option.isSome_iff_exists.mp performed
  refine ⟨s, reached, migrations_kept .empty .migrated redeployed ?_ s reached⟩
  intro name script gained
  simp only [redeployed, callFor, List.mem_append, List.mem_cons, List.mem_replicate,
    reduceCtorEq, and_false, or_false, List.not_mem_nil] at gained
  rcases gained with first | rest
  · exact gains_contained first
  · exact gains_contained rest

/-- `UPDATE zone_counts SET entry_count = 0`. -/
def resetCounts : Script := fun _ =>
  some ⟨fun db => { db with rows.zoneCounts := db.rows.zoneCounts.map fun _ => 0 }, false⟩

/-- `DELETE FROM schema_migrations`. -/
def forgetVersions : Script := fun _ =>
  some ⟨fun db => { db with versions := db.versions.map fun _ => [] }, false⟩

/-- `CREATE TABLE notes (note TEXT); COMMIT`. -/
def commitNotes : Script := fun seen =>
  if seen.schema.hasTable "notes" then none
  else some ⟨fun db => { db with schema.tables := db.schema.tables.set "notes" ["note"] }, true⟩

/-- The shipped files are deployed, a vehicle enters a zone, and a file appears. -/
def deployedWith (script : Script) : List Action :=
  gains shippedFiles ++ callFor 44 ++ [.telemetry faultTick none, .gain "0010_later.sql" script]

/-- The counter of a zone before and after a call that returned. -/
def Outcome.countsAt (zone : String) : Outcome → Option (Option Int × Option Int)
  | .returned _ _ before after =>
    some (before.rows.zoneCounts.get? zone, after.rows.zoneCounts.get? zone)
  | _ => none

/-- Whether a table was there before and after a call that failed before its commit. -/
def Outcome.tableAt (table : String) : Outcome → Option (Bool × Bool)
  | .failed before after => some (before.schema.hasTable table, after.schema.hasTable table)
  | _ => none

/-- An outcome that the evaluation of a run has found in its log. -/
theorem exists_logged {start : Runner} {acts : List Action} {A : Type} {f : Outcome → Option A}
    {found : List A} {a : A}
    (evaluated : (Machine.run Runner.step start acts).map (fun s => s.log.filterMap f) = some found)
    (member : a ∈ found) :
    ∃ s o, Machine.run Runner.step start acts = some s ∧ o ∈ s.log ∧ f o = some a := by
  obtain ⟨s, reached, rfl⟩ := Option.map_eq_some_iff.mp evaluated
  obtain ⟨o, logged, shown⟩ := List.mem_filterMap.mp member
  exact ⟨s, o, reached, logged, shown⟩

/-- A file may set the counters back, have the files before it applied once more, or leave its
change behind in a call that fails. -/
theorem gained_file_undoes :
    (∃ s applied executed before after,
      Machine.run Runner.step (.start .empty .migrated)
        (deployedWith resetCounts ++ callFor 37) = some s ∧
      .returned applied executed before after ∈ s.log ∧
      ¬GrownAt "aisle_a" before.rows.zoneCounts after.rows.zoneCounts) ∧
    (∃ s, Machine.run Runner.step (.start .empty .migrated)
        (deployedWith forgetVersions ++ callFor 37 ++ callFor 45) = some s ∧
      ¬(committedNames s.log).Nodup) ∧
    ∃ s before after,
      Machine.run Runner.step (.start .empty .migrated)
        (deployedWith commitNotes ++ callFor 13 ++ [.fail]) = some s ∧
      .failed before after ∈ s.log ∧ after.schema ≠ before.schema := by
  refine ⟨?_, ?_, ?_⟩
  -- an entry is counted between the calls, and the second one sets the counter back
  · have evaluated : (Machine.run Runner.step (.start .empty .migrated)
        (deployedWith resetCounts ++ callFor 37)).map
          (fun s => s.log.filterMap (Outcome.countsAt "aisle_a")) =
        some [(none, some 0), (some 1, some 0)] := by
      decide +kernel
    obtain ⟨s, o, reached, logged, shown⟩ :=
      exists_logged (a := (some 1, some 0)) evaluated (by simp)
    cases o with
    | returned applied executed before after =>
      refine ⟨s, applied, executed, before, after, reached, logged, ?_⟩
      simp only [Outcome.countsAt, Option.some.injEq, Prod.mk.injEq] at shown
      intro grown
      obtain ⟨n', present, le⟩ := grown 1 shown.1
      rw [shown.2, Option.some.injEq] at present
      omega
    | migrated | failed | raised => cases shown
  -- the file empties the table of versions, so all of them are applied once more
  · have evaluated : (Machine.run Runner.step (.start .empty .migrated)
        (deployedWith forgetVersions ++ callFor 37 ++ callFor 45)).map
          (fun s => decide (committedNames s.log).Nodup) = some false := by
      decide +kernel
    obtain ⟨s, reached, twice⟩ := Option.map_eq_some_iff.mp evaluated
    exact ⟨s, reached, of_decide_eq_false twice⟩
  -- a script that commits keeps its change, and the call fails behind it
  · have evaluated : (Machine.run Runner.step (.start .empty .migrated)
        (deployedWith commitNotes ++ callFor 13 ++ [.fail])).map
          (fun s => s.log.filterMap (Outcome.tableAt "notes")) = some [(false, true)] := by
      decide +kernel
    obtain ⟨s, o, reached, logged, shown⟩ := exists_logged evaluated List.mem_cons_self
    cases o with
    | failed before after =>
      refine ⟨s, before, after, reached, logged, ?_⟩
      simp only [Outcome.tableAt, Option.some.injEq, Prod.mk.injEq] at shown
      intro same
      rw [same, shown.1] at shown
      cases shown.2
    | migrated | returned | raised => cases shown

end Runs

end FleetTelemetry.Migrate
