import FleetTelemetry.Service.Effects

/-!
# Zone entry counts

The zone counters under concurrency. The increment reads the counter under the row lock it
keeps until commit, so in every reachable state each counter is its initial value plus
one for every committed entry of its zone. An event may name any zone: the update matches
no row for a zone without one, and nobody looks at how many rows it matched.
-/

namespace FleetTelemetry.Ingest

open Foundations Service

theorem get?_countEntry (entered : Option String) (zoneCounts : OrdMap String Int)
    (zone : String) {n : Int} (known : zoneCounts.get? zone = some n) :
    (countEntry entered zoneCounts).get? zone =
      some (if entered = some zone then n + 1 else n) := by
  cases entered with
  | none => simpa [countEntry] using known
  | some other =>
    simp only [countEntry]
    by_cases same : other = zone
    · subst other
      simp [known]
    · have apart : zone ≠ other := fun equal => same equal.symm
      cases zoneCounts.get? other with
      | none => simp [known, same]
      | some m => simp [OrdMap.get?_set_of_ne _ _ _ _ apart, known, same]

/-- Only a committed telemetry event moves a counter, by its own entry. -/
theorem zoneCounts_effect {answer} {call : Call} {answered : List (Sigma Stmt.Ret)}
    {reply : Reply} {before after : Db}
    (effect : Effect answer call answered reply before after) :
    (∃ event, call = .postTelemetry event ∧
      after.zoneCounts = countEntry event.zone before.zoneCounts) ∨
    ((∀ event, call ≠ .postTelemetry event) ∧ after.zoneCounts = before.zoneCounts) := by
  cases effect with
  | ingested read detected => exact .inl ⟨_, rfl, rfl⟩
  | alreadyInFault | enteredFault | unmatched | updated | swept =>
    right
    constructor
    · intro event
      simp
    · rfl

/-- Each counter is exact in every reachable state, and an event that entered no zone
moved none. -/
theorem zoneCounts_exact (db : Db) (s : State) (reached : Reachable db s) :
    (∀ zone n, db.zoneCounts.get? zone = some n →
      s.db.zoneCounts.get? zone =
        some (n + ((committedEvents s.log).countP fun event =>
          decide (event.zone = some zone)))) ∧
    (∀ event answered reply before after,
      .returned (.postTelemetry event) answered reply before after ∈ s.log →
      event.zone = none → after.zoneCounts = before.zoneCounts) := by
  constructor
  · intro zone n initial
    refine reached.log_invariant
      (P := fun log db => db.zoneCounts.get? zone =
        some (n + ((committedEvents log).countP fun event =>
          decide (event.zone = some zone)))) ?_ ?_ ?_
    · simpa [committedEvents] using initial
    · intro log call error db holds
      rwa [committedEvents_other _ _ (by simp)]
    · intro log call answered reply before after effect holds
      -- the counter and the count of committed entries move together
      rcases zoneCounts_effect effect with ⟨event, rfl, moved⟩ | ⟨other, same⟩
      · rw [committedEvents_returned, List.countP_append, moved,
          get?_countEntry _ _ _ holds]
        by_cases entered : event.zone = some zone
        · simp [entered]
          omega
        · simp [entered]
      · rw [committedEvents_other _ _ (by simp [other]), same]
        exact holds
  · intro event answered reply before after logged none
    have effect := ReachableWith.explained agree_closed reached _ logged
    rcases zoneCounts_effect effect with ⟨event', same, moved⟩ | ⟨other, _⟩
    · cases same
      simpa [none, countEntry] using moved
    · exact (other event rfl).elim

/-- A vehicle entering an aisle, with nothing for the anomaly rules. -/
def aisleEntry (vehicleId : String)
    (length : 1 ≤ vehicleId.length ∧ vehicleId.length ≤ 64) : TelemetryEvent :=
  { vehicleId
    status := .moving
    batteryPct := .finite 80
    recordedAt := .aware 0
    zoneEntered := some "aisle_a"
    vehicleId_length := length
    batteryPct_range := batteryPct_eighty
    speedMps_range := speedMps_standing }

/-- The second entry waits for the first one's row lock; the third aborts after its increment. -/
theorem zoneCounts_exact_overlap :
    ∃ s, Reachable Db.seeded s ∧ (committedEvents s.log).length = 2 ∧
      s.db.zoneCounts.get? "aisle_a" =
        some (0 + ((committedEvents s.log).countP fun event =>
          decide (event.zone = some "aisle_a"))) := by
  have ⟨s, reached, two⟩ := exists_reachable closed [0, 1, 2] Db.seeded
    [.begin 0 (.postTelemetry (aisleEntry "agv-1" (by decide))),
      .begin 1 (.postTelemetry (aisleEntry "agv-2" (by decide))),
      .advance 0, .advance 1, .advance 0, .advance 1, .advance 0, .advance 1, .advance 0,
      .advance 0, .advance 1, .advance 1,
      .begin 2 (.postTelemetry (aisleEntry "agv-3" (by decide))),
      .advance 2, .advance 2, .advance 2, .advance 2, .abort 2]
    (fun s => decide ((committedEvents s.log).length = 2))
    (by decide +kernel)
  exact ⟨s, reached, by simpa using two,
    (zoneCounts_exact Db.seeded s reached).1 "aisle_a" 0 (by decide +kernel)⟩

/-- One counter grew by one and the others kept their values. -/
def CountsOnce (before after : OrdMap String Int) : Prop :=
  ∃ zone n, before.get? zone = some n ∧ after.get? zone = some (n + 1) ∧
    ∀ other, other ≠ zone → after.get? other = before.get? other

section Counted

variable (zoneCounts : OrdMap String Int)

theorem countEntry_absent {zone : String} (absent : zone ∉ zoneCounts.keys) :
    countEntry (some zone) zoneCounts = zoneCounts := by
  have none := (OrdMap.get?_eq_none_iff zoneCounts zone).mpr absent
  simp [countEntry, none]

theorem countEntry_present {zone : String} (present : zone ∈ zoneCounts.keys) :
    ∃ n, zoneCounts.get? zone = some n ∧
      countEntry (some zone) zoneCounts = zoneCounts.set zone (n + 1) := by
  obtain ⟨n, found⟩ :=
    Option.isSome_iff_exists.mp ((OrdMap.mem_keys_iff zoneCounts zone).mp present)
  exact ⟨n, found, by simp [countEntry, found]⟩

theorem keys_countEntry (entered : Option String) :
    (countEntry entered zoneCounts).keys = zoneCounts.keys := by
  cases entered with
  | none => simp [countEntry]
  | some zone =>
    by_cases present : zone ∈ zoneCounts.keys
    · obtain ⟨n, _, counted⟩ := countEntry_present zoneCounts present
      rw [counted, OrdMap.keys_set_of_mem _ _ _ present]
    · rw [countEntry_absent zoneCounts present]

/-- The entry of a zone is counted exactly if the zone has a row. -/
theorem countsOnce_countEntry (zone : String) :
    CountsOnce zoneCounts (countEntry (some zone) zoneCounts) ↔ zone ∈ zoneCounts.keys := by
  constructor
  · rintro ⟨grown, n, before, after, _⟩
    by_contra absent
    rw [countEntry_absent zoneCounts absent, before, Option.some.injEq] at after
    omega
  · intro present
    obtain ⟨n, found, counted⟩ := countEntry_present zoneCounts present
    rw [counted]
    refine ⟨zone, n, found, OrdMap.get?_set_self _ _ _, ?_⟩
    intro other apart
    exact OrdMap.get?_set_of_ne _ _ _ _ apart

/-- The event entered a zone that has a row. -/
def knownEntry (event : TelemetryEvent) : Bool :=
  match event.zone with
  | some zone => zoneCounts.has zone
  | none => false

theorem countEntry_unknown {event : TelemetryEvent}
    (unknown : knownEntry zoneCounts event = false) :
    countEntry event.zone zoneCounts = zoneCounts := by
  cases entered : event.zone with
  | none => rfl
  | some zone =>
    apply countEntry_absent
    simp only [knownEntry, entered] at unknown
    rw [← OrdMap.has_iff, unknown]
    exact Bool.false_ne_true

theorem total_countEntry (event : TelemetryEvent) :
    (countEntry event.zone zoneCounts).total =
      zoneCounts.total + if knownEntry zoneCounts event then 1 else 0 := by
  cases entered : event.zone with
  | none => simp [countEntry, knownEntry, entered]
  | some zone =>
    by_cases present : zone ∈ zoneCounts.keys
    · obtain ⟨n, found, counted⟩ := countEntry_present zoneCounts present
      rw [counted, OrdMap.total_set found]
      simp [knownEntry, entered, present]
    · rw [countEntry_absent zoneCounts present]
      simp [knownEntry, entered, present]

/-- Counting the entries of zones with a row misses an entry as soon as one has none. -/
theorem countP_knownEntry (events : List TelemetryEvent) :
    events.countP (knownEntry zoneCounts) = events.countP (fun event => event.zone.isSome) ↔
      ∀ event ∈ events, ∀ zone, event.zone = some zone → zone ∈ zoneCounts.keys := by
  -- a miss is never made up for later in the list
  have fewer : ∀ events : List TelemetryEvent, events.countP (knownEntry zoneCounts) ≤
      events.countP fun event => event.zone.isSome := by
    intro events
    apply List.countP_mono_left
    intro event _ known
    cases entered : event.zone with
    | none => simp [knownEntry, entered] at known
    | some zone => simp
  induction events with
  | nil => simp
  | cons event events ih =>
    rw [List.countP_cons, List.countP_cons, List.forall_mem_cons]
    refine Iff.trans ?_ (and_congr_right fun _ => ih)
    have rest := fewer events
    cases entered : event.zone with
    | none => simp [knownEntry, entered]
    | some zone =>
      by_cases present : zone ∈ zoneCounts.keys
      · simp [knownEntry, entered, present]
      · simp only [knownEntry, entered, OrdMap.has_iff, present, if_false, Option.isSome_some,
          if_true, Option.some.injEq, forall_eq', false_and, iff_false]
        omega

end Counted

/-- No call adds or removes a row of `zone_counts`. -/
theorem zoneCounts_keys {db : Db} {s : State} (reached : Reachable db s) :
    s.db.zoneCounts.keys = db.zoneCounts.keys ∧
      ∀ e ∈ s.log, e.before.zoneCounts.keys = db.zoneCounts.keys := by
  refine Chain.holds_before (fun db' => db'.zoneCounts.keys = db.zoneCounts.keys)
    (Explained closed) (Foundations.Reachable.chain reached)
    (ReachableWith.explained agree_closed reached) rfl ?_
  intro e explained same
  cases e with
  | raised call error state => exact same
  -- the closed world has no writes from outside
  | outside before after =>
    obtain ⟨_, impossible⟩ := explained
    exact impossible.elim
  | returned call answered reply before after =>
    rcases zoneCounts_effect explained with ⟨event, _, moved⟩ | ⟨_, kept⟩
    · exact (congrArg OrdMap.keys moved).trans ((keys_countEntry _ _).trans same)
    · exact (congrArg OrdMap.keys kept).trans same

/-- The counters add up to the committed entries of zones that have a row. -/
theorem total_zoneCounts {db : Db} {s : State} (reached : Reachable db s) :
    s.db.zoneCounts.total =
      db.zoneCounts.total + (committedEvents s.log).countP (knownEntry db.zoneCounts) := by
  have general := reached.log_invariant
    (P := fun log db' => db'.zoneCounts.keys = db.zoneCounts.keys ∧ db'.zoneCounts.total =
      db.zoneCounts.total + (committedEvents log).countP (knownEntry db.zoneCounts))
    ⟨rfl, by simp [committedEvents]⟩ ?_ ?_
  · exact general.2
  · intro log call error db holds
    rwa [committedEvents_other _ _ (by simp)]
  · rintro log call answered reply before after effect ⟨rows, sum⟩
    rcases zoneCounts_effect effect with ⟨event, rfl, moved⟩ | ⟨other, kept⟩
    -- the rows are still those of the first state, so knowing a zone does not change
    · have sameRows : knownEntry before.zoneCounts event = knownEntry db.zoneCounts event := by
        simp [knownEntry, OrdMap.has, rows]
      rw [committedEvents_returned, List.countP_append, moved, keys_countEntry, total_countEntry,
        sum, sameRows, List.countP_singleton]
      refine ⟨rows, ?_⟩
      by_cases known : knownEntry db.zoneCounts event = true
      · simp [known]
        omega
      · simp [known]
    · rw [committedEvents_other _ _ (by simp [other]), kept]
      exact ⟨rows, sum⟩

/-- A committed entry is counted exactly if its zone has a row, and so the counters add up
to the accepted entries exactly if all their zones do. -/
theorem zoneEntry_counted_iff (db : Db) (s : State) (reached : Reachable db s) :
    (∀ event answered reply before after zone,
      .returned (.postTelemetry event) answered reply before after ∈ s.log →
      event.zone = some zone →
      (CountsOnce before.zoneCounts after.zoneCounts ↔ zone ∈ db.zoneCounts.keys)) ∧
    (s.db.zoneCounts.total = db.zoneCounts.total +
        (committedEvents s.log).countP (fun event => event.zone.isSome) ↔
      ∀ event ∈ committedEvents s.log, ∀ zone, event.zone = some zone →
        zone ∈ db.zoneCounts.keys) := by
  constructor
  · intro event answered reply before after zone logged entered
    have effect := ReachableWith.explained agree_closed reached _ logged
    have rows : before.zoneCounts.keys = db.zoneCounts.keys :=
      (zoneCounts_keys reached).2 _ logged
    rcases zoneCounts_effect effect with ⟨event', same, moved⟩ | ⟨other, _⟩
    · cases same
      rw [moved, entered, countsOnce_countEntry, rows]
    · exact (other event rfl).elim
  -- the total grows by the known entries, which are all of them only if all are known
  · rw [total_zoneCounts reached, ← countP_knownEntry]
    omega

/-- A vehicle entering the given zone. -/
def entryOf (zone : String) : TelemetryEvent :=
  { aisleEntry "agv-1" agv1_length with zoneEntered := some zone }

/-- Two zones of the seed and one that is none of them. -/
theorem zoneEntry_counted_iff_seeded :
    ∃ s, Reachable Db.seeded s ∧ (committedEvents s.log).length = 3 ∧
      s.db.zoneCounts.total ≠ Db.seeded.zoneCounts.total +
        (committedEvents s.log).countP (fun event => event.zone.isSome) := by
  have ⟨s, reached, held⟩ := exists_reachable closed [0, 1, 2] Db.seeded
    [.begin 0 (.postTelemetry (entryOf "aisle_a")), .advance 0, .advance 0, .advance 0,
      .advance 0, .advance 0,
      .begin 1 (.postTelemetry (entryOf "nowhere")), .advance 1, .advance 1, .advance 1,
      .advance 1, .advance 1,
      .begin 2 (.postTelemetry (entryOf "sort_belt")), .advance 2, .advance 2, .advance 2,
      .advance 2, .advance 2]
    (fun s => decide ((committedEvents s.log).length = 3) &&
      (committedEvents s.log).any fun event => decide (event.zone = some "nowhere"))
    (by decide +kernel)
  simp only [Bool.and_eq_true, decide_eq_true_eq, List.any_eq_true] at held
  obtain ⟨three, event, committed, entered⟩ := held
  refine ⟨s, reached, three, ?_⟩
  -- an entry of an unknown zone is committed, and no counter has it
  intro counted
  have known := (zoneEntry_counted_iff Db.seeded s reached).2.mp counted event committed _ entered
  have absent : "nowhere" ∉ Db.seeded.zoneCounts.keys := by decide +kernel
  exact absent known

/-- A committed entry of a zone without a row that has left the counters as they were. -/
def uncounted : Event → Bool
  | .returned (.postTelemetry event) _ _ before after =>
    decide (event.zone = some "nowhere") &&
      decide (before.zoneCounts.entries = after.zoneCounts.entries)
  | _ => false

/-- The entry of a zone without a row is accepted and moves no counter. -/
theorem unknownZone_uncounted :
    ∃ s event answered reply before after, Reachable Db.seeded s ∧
      event.zone = some "nowhere" ∧
      .returned (.postTelemetry event) answered reply before after ∈ s.log ∧
      ¬CountsOnce before.zoneCounts after.zoneCounts := by
  obtain ⟨s, reached, held⟩ := exists_reachable closed [0] Db.seeded
    [.begin 0 (.postTelemetry (entryOf "nowhere")), .advance 0, .advance 0, .advance 0,
      .advance 0, .advance 0]
    (fun s => s.log.any uncounted) (by decide +kernel)
  obtain ⟨e, logged, shown⟩ := List.any_eq_true.mp held
  cases e with
  | raised call error state => simp [uncounted] at shown
  | outside before after => simp [uncounted] at shown
  | returned call answered reply before after =>
    cases call with
    | postVehicleStatus v update => simp [uncounted] at shown
    | sweep now => simp [uncounted] at shown
    | postTelemetry event =>
      simp only [uncounted, Bool.and_eq_true, decide_eq_true_eq] at shown
      refine ⟨s, event, answered, reply, before, after, reached, shown.1, logged, ?_⟩
      rintro ⟨zone, n, found, grown, _⟩
      rw [OrdMap.get?, ← shown.2, ← OrdMap.get?, found, Option.some.injEq] at grown
      omega

end FleetTelemetry.Ingest
