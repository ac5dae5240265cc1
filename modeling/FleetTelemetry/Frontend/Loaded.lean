import FleetTelemetry.Frontend.Live
import FleetTelemetry.Frontend.Painting

/-!
# The screen shows the database

Once the reads of the mounted run have come in, the frames of its socket are all that still
changes the stores. So what the stream and the stores come to is what the user sees.
-/

namespace FleetTelemetry.Frontend

open Foundations
open Cdc (Numerals PgMessage)
open Dashboard (App PatchEvent)
open Service (State assignsMission)

/-- A frame on the socket of a run. -/
def Happening.frameFor (k : Nat) : Happening → Option MessageData
  | .frame socket data => if socket = k then some data else none
  | _ => none

def Happening.isCleanup : Happening → Bool
  | .cleanup => true
  | _ => false

/-- The stores once a frame has called the handler. -/
def heard (floats : Floats) (cast : List UInt16 × Json Double → PatchEvent) (app : App)
    (data : MessageData) : App :=
  match onMessage floats data with
  | some event => app.onEvent (cast event)
  | none => app

namespace View

variable {floats : Floats} {cast : List UInt16 × Json Double → PatchEvent} {v v' : View} {k : Nat}

/-- The run is mounted and its reads have come in. -/
structure Loaded (v : View) (k : Nat) : Prop where
  tidy : v.Tidy
  mounted : v.mounted = some k
  settled : (v.runs k).settled = some true

theorem Loaded.fulfilled (loaded : v.Loaded k) : (v.runs k).allFulfilled :=
  (loaded.tidy.settled k).1 loaded.settled

theorem runs_resolve {α : Type} (v : View) {j : Nat} (snapshot : Option α)
    (put : Fetch → EffectRun) (seed : App → α → App) (other : k ≠ j) :
    (v.resolve j snapshot put seed).runs k = v.runs k := by
  unfold View.resolve
  cases snapshot with
  | none => exact (runs_withRun ..).trans (if_neg other)
  | some rows =>
    dsimp only
    split <;> exact (runs_withRun ..).trans (if_neg other)

/-- A late read of another run. -/
theorem Loaded.resolve (loaded : v.Loaded k) {α : Type} {j : Nat} (made : j < v.transport.sockets)
    (other : k ≠ j) (snapshot : Option α) (put : Fetch → EffectRun) (seed : App → α → App) :
    (v.resolve j snapshot put seed).mounted = some k ∧
      ((v.resolve j snapshot put seed).runs k).settled = some true ∧
      (v.resolve j snapshot put seed).shown.app = v.shown.app := by
  have unmounted : v.mounted ≠ some j := fun same =>
    other (Option.some.inj (loaded.mounted.symm.trans same))
  obtain ⟨shown, mounted⟩ :=
    shown_resolve (loaded.tidy.past j made unmounted).2.2 snapshot put seed
  rw [mounted, shown, runs_resolve v snapshot put seed other]
  exact ⟨loaded.mounted, loaded.settled, rfl⟩

/-- Of everything that may happen but the cleanup only a frame of the run's own socket changes
the stores, and the run stays loaded. -/
theorem Loaded.step (loaded : v.Loaded k) {h : Happening}
    (performed : v.step floats cast h = some v') (stays : h.isCleanup = false) :
    v'.Loaded k ∧
      v'.shown.app = (h.frameFor k).toList.foldl (heard floats cast) v.shown.app := by
  have tidy := loaded.tidy.step performed
  suffices kept : v'.mounted = some k ∧ (v'.runs k).settled = some true ∧
      v'.shown.app = (h.frameFor k).toList.foldl (heard floats cast) v.shown.app from
    ⟨⟨tidy, kept.1, kept.2.1⟩, kept.2.2⟩
  obtain ⟨vehicles, anomalies, zones⟩ := loaded.fulfilled
  unfold View.step at performed
  cases h with
  | mount =>
    dsimp only at performed
    rw [loaded.mounted] at performed
    cases performed
  | cleanup => cases stays
  | opens socket =>
    dsimp only at performed
    split at performed
    next fresh =>
      cases performed
      have bound : Bound { v with opened := Function.update v.opened socket true } :=
        ⟨loaded.tidy.past, loaded.tidy.unmounted, loaded.tidy.current⟩
      rw [bound.dispatchConnection fresh.1]
      split <;> exact ⟨loaded.mounted, loaded.settled, rfl⟩
    · cases performed
  | lost socket =>
    obtain ⟨transport, ended, rfl⟩ := Option.map_eq_some_iff.mp performed
    obtain ⟨made, rfl⟩ := Transport.step_cases ended
    rw [(loaded.tidy.toBound.close socket).dispatchConnection made]
    split <;> exact ⟨loaded.mounted, loaded.settled, rfl⟩
  | frame socket data =>
    obtain ⟨transport, delivered, rfl⟩ := Option.map_eq_some_iff.mp performed
    obtain ⟨made, isOpen, _⟩ := Transport.step_cases delivered
    -- every other socket is closed
    obtain rfl : k = socket := Option.some.inj
      (loaded.mounted.symm.trans (loaded.tidy.mounted_of_open made isOpen))
    have listeners := (loaded.tidy.current k loaded.mounted).2.2.1
    dsimp only [Happening.frameFor]
    rw [if_pos rfl, Option.toList_some, List.foldl_cons, List.foldl_nil, heard, listeners]
    cases onMessage floats data with
    | none => exact ⟨loaded.mounted, loaded.settled, rfl⟩
    | some event => exact ⟨loaded.mounted, loaded.settled, rfl⟩
  | vehicles j snapshot =>
    dsimp only at performed
    split at performed
    next waiting =>
      cases performed
      have other : k ≠ j := by
        rintro rfl
        rw [vehicles] at waiting
        cases waiting.2
      exact loaded.resolve waiting.1 other _ _ _
    · cases performed
  | anomalies j snapshot =>
    dsimp only at performed
    split at performed
    next waiting =>
      cases performed
      have other : k ≠ j := by
        rintro rfl
        rw [anomalies] at waiting
        cases waiting.2
      exact loaded.resolve waiting.1 other _ _ _
    · cases performed
  | zones j snapshot =>
    dsimp only at performed
    split at performed
    next waiting =>
      cases performed
      have other : k ≠ j := by
        rintro rfl
        rw [zones] at waiting
        cases waiting.2
      exact loaded.resolve waiting.1 other _ _ _
    · cases performed
  | settle j =>
    dsimp only at performed
    split at performed
    next waiting =>
      obtain ⟨ok, _, rfl⟩ := Option.map_eq_some_iff.mp performed
      have other : k ≠ j := by
        rintro rfl
        rw [loaded.settled] at waiting
        cases waiting.2
      have runs := (runs_withRun v j { v.runs j with settled := some ok } k).trans (if_neg other)
      split
      · refine ⟨loaded.mounted, ?_, rfl⟩
        dsimp only
        rw [runs]
        exact loaded.settled
      · refine ⟨loaded.mounted, ?_, rfl⟩
        rw [runs]
        exact loaded.settled
    · cases performed

theorem Loaded.run (loaded : v.Loaded k) {later : List Happening}
    (continued : Machine.run (View.step floats cast) v later = some v')
    (stays : ∀ h ∈ later, h.isCleanup = false) :
    v'.Loaded k ∧
      v'.shown.app = (later.filterMap (Happening.frameFor k)).foldl (heard floats cast)
        v.shown.app := by
  induction later generalizing v with
  | nil =>
    cases continued
    exact ⟨loaded, rfl⟩
  | cons h later ih =>
    obtain ⟨mid, performed, rest⟩ := Option.bind_eq_some_iff.mp continued
    rw [List.forall_mem_cons] at stays
    obtain ⟨still, app⟩ := loaded.step performed stays.1
    obtain ⟨final, apps⟩ := ih still rest stays.2
    refine ⟨final, ?_⟩
    -- a happening that is no frame of the socket hears nothing
    rw [apps, app, ← List.foldl_append]
    congr 1
    cases frame : h.frameFor k <;> simp [frame]

/-- A socket that is open takes every frame. -/
theorem exists_delivered (socket : Nat) (frames : List (List Char)) (v : View) (tidy : v.Tidy)
    (made : socket < v.transport.sockets) (isOpen : v.transport.closed socket = false) :
    ∃ v', Machine.run (View.step floats cast) v
      (frames.map fun frame => .frame socket (.text frame)) = some v' := by
  induction frames generalizing v with
  | nil => exact ⟨v, rfl⟩
  | cons frame frames ih =>
    obtain ⟨transport, delivered⟩ : ∃ transport,
        v.transport.step floats (.deliver socket (.text frame)) = some transport := by
      simp only [Transport.step, made, isOpen, and_self, if_true]
      cases onMessage floats (.text frame) <;> exact ⟨_, rfl⟩
    obtain ⟨mid, performed⟩ : ∃ mid,
        v.step floats cast (.frame socket (.text frame)) = some mid :=
      ⟨_, congrArg (Option.map _) delivered⟩
    obtain ⟨sockets, same, _⟩ := tidy.transport performed
    -- a delivery closes nothing, so the next frame can be delivered too
    have closed : mid.transport.closed = v.transport.closed := by
      obtain ⟨_, _, ⟨_, unchanged⟩ | ⟨_, _, unchanged⟩⟩ := Transport.step_cases same
      · rw [unchanged]
      · rw [unchanged]
        rfl
    obtain ⟨v', rest⟩ := ih mid (tidy.step performed) (sockets ▸ made) (closed ▸ isOpen)
    exact ⟨v', Option.bind_eq_some_iff.mpr ⟨mid, performed, rest⟩⟩

/-- Once the reads of the mounted run have come in, and until its cleanup, the page is a fold
of the frames of its own socket, whatever else still comes. -/
theorem loaded_follows (floats : Floats) (cast : List UInt16 × Json Double → PatchEvent)
    (hs later : List Happening) (v v' : View) (k : Nat)
    (reached : Machine.run (View.step floats cast) initial hs = some v)
    (mounted : v.mounted = some k) (settled : (v.runs k).settled = some true)
    (continued : Machine.run (View.step floats cast) v later = some v')
    (stays : ∀ h ∈ later, h.isCleanup = false) (t : Tree) (painted : Painted floats cast v' t) :
    ∃ announcement connected, t.render.page = some (Shown.page
      ⟨(later.filterMap (Happening.frameFor k)).foldl (heard floats cast) v.shown.app, .ok,
        announcement, connected⟩) ∧
      (connected = true ↔ v'.opened k = true ∧ v'.transport.closed k = false) := by
  have loaded : v.Loaded k := ⟨tidy_run reached, mounted, settled⟩
  obtain ⟨final, app⟩ := loaded.run continued stays
  -- once its reads are fulfilled a run never goes back to loading
  have status : v'.shown.dataStatus = .ok := by
    rw [final.tidy.status k final.mounted, final.settled]
    rfl
  obtain ⟨_, coherent, same⟩ := painted.sound
  refine ⟨v'.shown.announcement, v'.shown.connected, ?_, final.tidy.badge k final.mounted⟩
  rw [Tree.page_render coherent, same, ← app, ← status]

end View

section Loading

def readPayload (patch : List UInt16 × Json Double) : PatchEvent :=
  (Browser.typedEvent patch).getD (.zoneCountChanged ⟨"", 0⟩)

def loading : List Happening :=
  [.mount, .opens 0,
    .vehicles 0 (some (Dashboard.currentVehicleStates (fun _ _ => true) entrySeed)),
    .anomalies 0 (some []), .zones 0 (some (zoneEntryCounts entrySeed).entries), .settle 0]

theorem loading_run : ∃ v,
    Machine.run (View.step chargedFloats readPayload) .initial loading = some v ∧
      v.mounted = some 0 ∧ (v.runs 0).settled = some true ∧
      v.shown.app.vehicles = (App.seeded (fun _ _ => true) entrySeed).vehicles ∧
      v.shown.app.zones = (App.seeded (fun _ _ => true) entrySeed).zones ∧
      0 < v.transport.sockets ∧ v.transport.closed 0 = false :=
  ⟨_, rfl, rfl, rfl, rfl, rfl, Nat.one_pos, rfl⟩

theorem View.loaded_follows_zone : ∃ (v v' : View) (t : Tree),
    Machine.run (View.step chargedFloats readPayload) .initial loading = some v ∧
      Machine.run (View.step chargedFloats readPayload) v
        [.frame 0 (.text ((Row.zoneCounts "aisle_a" 3).frame chargedFloats))] = some v' ∧
      Painted chargedFloats readPayload v' t ∧
      ∃ announcement connected, t.render.page = some (Shown.page
        ⟨heard chargedFloats readPayload v.shown.app
          (.text ((Row.zoneCounts "aisle_a" 3).frame chargedFloats)), .ok, announcement,
          connected⟩) := by
  obtain ⟨v, reached, mounted, settled, _, _, made, isOpen⟩ := loading_run
  obtain ⟨v', continued⟩ := View.exists_delivered 0
    [(Row.zoneCounts "aisle_a" 3).frame chargedFloats] v (View.tidy_run reached) made isOpen
  obtain ⟨t, painted⟩ := Painted.of_run ((Machine.run_append ..).trans
    (Option.bind_eq_some_iff.mpr ⟨v, reached, continued⟩))
  obtain ⟨announcement, connected, rendered, _⟩ := View.loaded_follows chargedFloats
    readPayload loading _ v v' 0 reached mounted settled continued
    (by simp [Happening.isCleanup]) t painted
  exact ⟨v, v', t, reached, continued, painted, announcement, connected, rendered⟩

end Loading

section Screen

variable {floats : Floats} {cast : List UInt16 × Json Double → PatchEvent}
  {collate : String → String → Bool}

/-- The frames that `parsePatch` takes. -/
def understood (floats : Floats) (data : MessageData) : Bool := (onMessage floats data).isSome

theorem foldl_understood (frames : List MessageData) (app : App) :
    (frames.filter (understood floats)).foldl (heard floats cast) app =
      frames.foldl (heard floats cast) app := by
  rw [List.foldl_filter]
  congr 1
  funext app data
  unfold understood heard
  cases onMessage floats data <;> rfl

/-- The cast takes a payload of the right shape for what it is. -/
def ReadsPayloads (cast : List UInt16 × Json Double → PatchEvent) : Prop :=
  ∀ patch event, Browser.typedEvent patch = some event → cast patch = event

theorem heard_frame (reads : ReadsPayloads cast) {frame : List Char}
    (typed : (Browser.event floats frame).isSome = true) (app : App) :
    heard floats cast app (.text frame) = hear floats app frame := by
  obtain ⟨event, is⟩ := Option.isSome_iff_exists.mp typed
  obtain ⟨patch, taken, shape⟩ := Option.bind_eq_some_iff.mp is
  rw [hear, is, heard, taken]
  exact congrArg app.onEvent (reads patch event shape)

theorem foldl_heard (reads : ReadsPayloads cast) {frames : List (List Char)}
    (typed : ∀ frame ∈ frames, (Browser.event floats frame).isSome = true) (app : App) :
    (frames.map .text).foldl (heard floats cast) app = frames.foldl (hear floats) app := by
  induction frames generalizing app with
  | nil => rfl
  | cons frame frames ih =>
    rw [List.forall_mem_cons] at typed
    rw [List.map_cons, List.foldl_cons, List.foldl_cons, heard_frame reads typed.1, ih typed.2]

theorem keys_deliver (texts : Texts) (writes : List Write) (app : App) :
    (writes.foldl (App.deliver texts) app).vehicles.keys = app.vehicles.keys ∧
      (writes.foldl (App.deliver texts) app).zones.keys = app.zones.keys := by
  induction writes generalizing app with
  | nil => exact ⟨rfl, rfl⟩
  | cons w writes ih =>
    obtain ⟨vehicles, zones⟩ := ih (app.deliver texts w)
    rw [List.foldl_cons, vehicles, zones, App.deliver]
    split
    next event _ =>
      cases event with
      | vehicleStateChanged payload => exact ⟨Dashboard.keys_patchKnown .., rfl⟩
      | anomalyDetected payload => exact ⟨rfl, rfl⟩
      | zoneCountChanged payload => exact ⟨rfl, Dashboard.keys_patchKnown ..⟩
    · exact ⟨rfl, rfl⟩

/-- No write reads one store to change another. -/
theorem deliver_congr (texts : Texts) (writes : List Write) {app app' : App}
    (vehicles : app.vehicles = app'.vehicles) (zones : app.zones = app'.zones) :
    (writes.foldl (App.deliver texts) app).vehicles =
        (writes.foldl (App.deliver texts) app').vehicles ∧
      (writes.foldl (App.deliver texts) app).zones =
        (writes.foldl (App.deliver texts) app').zones := by
  induction writes generalizing app app' with
  | nil => exact ⟨vehicles, zones⟩
  | cons w writes ih =>
    rw [List.foldl_cons, List.foldl_cons]
    apply ih <;>
    · rw [App.deliver, App.deliver]
      split
      next event _ => cases event <;> simp [App.onEvent, vehicles, zones]
      · assumption

/-- The page lists the vehicles and zones of the snapshots, each once and in their order, as
they are committed. -/
structure Displays (collate : String → String → Bool) (first : Db) (page : Page) (db : Db) :
    Prop where
  vehicles : first.vehicleCurrentState.keys ≠ [] → ∃ items, page.vehicles = .listed items ∧
    items.map VehicleRowView.vehicleId =
      (Dashboard.currentVehicleStates collate first).map Dashboard.VehicleSnapshotRow.vehicleId ∧
    ∀ item ∈ items, ∃ row, db.vehicleCurrentState.get? item.vehicleId = some row ∧
      item.status = row.status.text ∧ item.batteryPct = row.batteryPct ∧
      item.low = row.batteryPct.lt lowBatteryThreshold
  zones : first.zoneCounts.keys ≠ [] → ∃ items, page.zones = .listed items ∧
    items.map ZoneTileView.zoneId = first.zoneCounts.keys ∧
    ∀ item ∈ items, db.zoneCounts.get? item.zoneId = some item.count

theorem displays_of_shows {first : Db} {shown : Shown} {db : Db}
    (shows : Shows first shown.app db) (keyed : Dashboard.Identity.Keyed shown.app.vehicles)
    (vehicles : shown.app.vehicles.keys = (App.seeded collate first).vehicles.keys)
    (zones : shown.app.zones.keys = (App.seeded collate first).zones.keys) :
    Displays collate first shown.page db where
  vehicles listed := by
    -- patches make no row, so the rows are still those of the seed
    have stored : ∀ v, v ∈ shown.app.vehicles.keys ↔ v ∈ first.vehicleCurrentState.keys := by
      intro v
      rw [vehicles]
      exact Dashboard.mem_seedVehicles collate first v
    obtain ⟨v, some⟩ := List.exists_mem_of_ne_nil _ listed
    have rows : shown.app.vehicles.keys ≠ [] := List.ne_nil_of_mem ((stored v).mpr some)
    -- with rows, the list is shown whatever the message says
    refine ⟨_, if_neg fun empty => Tree.length_ne_zero rows empty.2, ?_, ?_⟩
    · refine Eq.trans ?_ (vehicles.trans (Dashboard.keys_seedVehicles collate first))
      rw [vehicleViews, List.map_map, List.map_map]
      apply List.map_congr_left
      intro entry listed
      exact keyed entry.1 entry.2 (OrdMap.lookup_of_mem shown.app.vehicles.nodup listed)
    · intro item member
      rw [vehicleViews, List.map_map] at member
      obtain ⟨entry, listed, rfl⟩ := List.mem_map.mp member
      have found := OrdMap.lookup_of_mem shown.app.vehicles.nodup listed
      -- the row is shown under the id in it, which is the one it is stored under
      have own : entry.2.vehicleId = entry.1 := keyed entry.1 entry.2 found
      obtain ⟨row, committed, shows⟩ :=
        shows.vehicle entry.1 ((stored entry.1).mp (List.mem_map_of_mem listed))
      refine ⟨row, (congrArg db.vehicleCurrentState.get? own).trans committed, ?_⟩
      have same : entry.2 = Dashboard.Vehicle.ofRow entry.1 row :=
        Option.some.inj (found.symm.trans shows)
      simp [vehicleRowImpl, same, Dashboard.Vehicle.ofRow]
  zones listed := by
    have stored : shown.app.zones.keys = first.zoneCounts.keys :=
      zones.trans (Dashboard.keys_seedZones first)
    rw [← stored] at listed ⊢
    refine ⟨_, if_neg fun empty => Tree.length_ne_zero listed empty.2, ?_, ?_⟩
    · rw [zoneViews, List.map_map]
      rfl
    · intro item member
      obtain ⟨entry, listed, rfl⟩ := List.mem_map.mp member
      have found := OrdMap.lookup_of_mem shown.app.zones.nodup listed
      have known : entry.1 ∈ first.zoneCounts.keys := by
        rw [← stored]
        exact List.mem_map_of_mem listed
      obtain ⟨count, committed, shows⟩ := shows.zone entry.1 known
      rw [committed, ← shows]
      exact found

/-- From a write to the screen: whatever calls are interleaved, whatever sessions of the consumer
stream their journal, rewinding but not skipping, and whichever prefix of it the snapshots of
the mounted run had. Every stage goes through, and once the dashboard has been sent all of it,
every render shows what is committed. -/
theorem screen_showsCommitted (num : Numerals) (texts : Texts) (floats : Floats) (limits : Limits)
    (collate : String → String → Bool) (cast : List UInt16 × Json Double → PatchEvent)
    (reads : ReadsPayloads cast) {C : Type} [DecidableEq C] (db : Db) (ranged : Ranged db)
    (s : State) (writes : List Write)
    (journal : Journal postgres transaction assignsMission db s writes)
    (legible : ∀ w ∈ writes, Legible num texts floats limits w) (k : Nat)
    (segments : List Segment) (rewinds : Segment.Rewinds k segments) (seeded : k ≤ writes.length)
    (ends : ∀ g ∈ segments, g.stop ≤ writes.length)
    (finished : Segment.finish k segments = writes.length) (sessions : List (List PgMessage))
    (streamed : List.Forall₂ (fun msgs (g : Segment) => Stream texts [] msgs (g.of writes)) sessions
      segments) :
    ∃ batches, List.Forall₂ (fun msgs batch => publishes num msgs = .ok batch) sessions batches ∧
      ∀ channel, List.Forall₂ (Published floats) batches.flatten channel →
        ∃ broadcasts, redisSubscriber floats limits channel = (broadcasts, none) ∧
          ∀ (c : C) (r r' : Registry C (List Char)) (actions : List (Action C (List Char))),
            Connected c broadcasts r actions r' →
            ∃ frames, r'.received c = r.received c ++ frames ∧
              ∀ (hs later : List Happening) (v v' : View) (mount : Nat) (t : Tree),
                Machine.run (View.step floats cast) .initial hs = some v → v.mounted = some mount →
                (v.runs mount).settled = some true →
                let first := db.after (writes.take k)
                v.shown.app.vehicles = (App.seeded collate first).vehicles →
                v.shown.app.zones = (App.seeded collate first).zones →
                Machine.run (View.step floats cast) v later = some v' →
                (∀ h ∈ later, h.isCleanup = false) →
                (later.filterMap (Happening.frameFor mount)).filter (understood floats) =
                  (frames.map .text).filter (understood floats) →
                Painted floats cast v' t →
                ∃ page, t.render.page = some page ∧ Displays collate first page s.db := by
  have settles := journal_settles ranged journal
  obtain ⟨batches, frames, published, subscribed, typed, follows⟩ :=
    sessions_follow settles legible streamed
  refine ⟨batches, published, fun channel carried => ⟨frames, subscribed channel carried, ?_⟩⟩
  intro c r r' actions connected
  refine ⟨frames, connected.received, ?_⟩
  intro hs later v v' mount t reached mounted settled first vehicles zones continued stays sent
    painted
  have loaded : v.Loaded mount := ⟨View.tidy_run reached, mounted, settled⟩
  obtain ⟨_, app⟩ := loaded.run continued stays
  obtain ⟨_, coherent, same⟩ := painted.sound
  refine ⟨v'.shown.page, by rw [Tree.page_render coherent, same], ?_⟩
  -- the frames bring the stores where the replay of the segments does
  rw [← foldl_understood, sent, foldl_understood, foldl_heard reads typed, follows] at app
  have keys := keys_deliver texts (segments.flatMap fun g => g.of writes) v.shown.app
  rw [← app, vehicles, zones] at keys
  have shows : Shows first _ s.db :=
    @shows_replayed texts collate _ _ _ _ _ settles rewinds seeded ends finished
  have like := deliver_congr texts (segments.flatMap fun g => g.of writes) vehicles zones
  refine displays_of_shows ⟨fun v stored => ?_, fun z stored => ?_⟩ ?_ keys.1 keys.2
  · rw [app, like.1]
    exact shows.vehicle v stored
  · rw [app, like.2]
    exact shows.zone z stored
  · have keyed := coherent.keyed
    have held : t.stores.app = v'.shown.app := congrArg Shown.app same
    rw [held] at keyed
    exact keyed

end Screen

section Entry

theorem reads_readPayload : ReadsPayloads readPayload := by
  intro patch event typed
  rw [readPayload, typed]
  rfl

/-- The snapshots have the vehicle, but not the zone's count, which a frame brings. -/
theorem screen_showsCommitted_entry :
    ∃ s batches channel broadcasts actions r' v t page,
      Journal postgres transaction assignsMission Db.seeded s entryWrites ∧
      List.Forall₂ (fun msgs batch => publishes entryNumerals msgs = .ok batch) entrySessions
        batches ∧
      List.Forall₂ (Published chargedFloats) batches.flatten channel ∧
      redisSubscriber chargedFloats unlimited channel = (broadcasts, none) ∧
      Connected 0 broadcasts (alone []) actions r' ∧
      Machine.run (View.step chargedFloats readPayload) .initial
        (loading ++ (r'.received 0).map fun frame => .frame 0 (.text frame)) = some v ∧
      Painted chargedFloats readPayload v t ∧ t.render.page = some page ∧
      Displays (fun _ _ => true) entrySeed page s.db := by
  obtain ⟨s, journal⟩ := entry_journaled
  obtain ⟨batches, published, streams⟩ := screen_showsCommitted entryNumerals entryTexts
    chargedFloats unlimited (fun _ _ => true) readPayload reads_readPayload (C := Nat) Db.seeded
    ranged_seeded s entryWrites journal entry_legible 2 [⟨0, 2⟩, ⟨1, 3⟩]
    ⟨by decide, by decide, trivial⟩ (by decide) (by decide) rfl entrySessions entry_streamed
  obtain ⟨channel, carried⟩ := exists_channel chargedFloats batches.flatten
  obtain ⟨broadcasts, subscribed, broadcast⟩ := streams channel carried
  obtain ⟨actions, r', connected⟩ := exists_connected broadcasts (alone []) rfl rfl
  obtain ⟨frames, received, shows⟩ := broadcast 0 _ r' actions connected
  replace received : r'.received 0 = frames := received
  -- the run is mounted and its reads have come before the first frame
  obtain ⟨v, reached, mounted, settled, vehicles, zones, made, isOpen⟩ := loading_run
  obtain ⟨v', continued⟩ := View.exists_delivered 0 frames v (View.tidy_run reached) made isOpen
  have run := (Machine.run_append ..).trans (Option.bind_eq_some_iff.mpr ⟨v, reached, continued⟩)
  obtain ⟨t, painted⟩ := Painted.of_run run
  have stays : ∀ h ∈ frames.map fun frame => Happening.frame 0 (.text frame),
      h.isCleanup = false := by
    intro h member
    obtain ⟨frame, _, rfl⟩ := List.mem_map.mp member
    rfl
  have sent : (frames.map fun frame => Happening.frame 0 (.text frame)).filterMap
      (Happening.frameFor 0) = frames.map .text := by
    rw [List.filterMap_map, ← List.filterMap_eq_map]
    rfl
  obtain ⟨page, rendered, displays⟩ := shows loading _ v v' 0 t reached mounted settled vehicles
    zones continued stays (by rw [sent]) painted
  exact ⟨s, batches, channel, broadcasts, actions, r', v', t, page, journal, published, carried,
    subscribed, connected, received ▸ run, painted, rendered, displays⟩

end Entry

end FleetTelemetry.Frontend
