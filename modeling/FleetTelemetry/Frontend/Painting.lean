import FleetTelemetry.Frontend.Rendering

/-!
# What is on the screen

The runs of the effect with React rendering between them. Each happening calls setters of the
hooks; the tree takes these calls, and what it shows is what the effect has come to.
-/

namespace FleetTelemetry.Frontend

open Foundations
open Dashboard (App PatchEvent)

namespace View

/-- The setter calls of a run's `subscribe` handler. -/
def eventCalls (v : View) (k : Nat) (event : PatchEvent) : List Update :=
  .event event :: match event with
    | .anomalyDetected payload =>
      if (v.runs k).active then
        [.announcement ("Anomaly on " ++ payload.vehicleId ++ ": " ++ payload.anomalyType)]
      else []
    | .vehicleStateChanged _ | .zoneCountChanged _ => []

/-- The setter calls of the connection callbacks, for each subscription that listens. -/
def connectionCalls (v : View) (socket : Nat) (state : Bool) : List Update :=
  (v.transport.listeners socket).flatMap fun _ =>
    (v.connectionListeners.filter fun k => (v.runs k).active).map fun _ => .connected state

def resolveCalls {α : Type} (v : View) (k : Nat) (snapshot : Option α) (seed : α → Update) :
    List Update :=
  if (v.runs k).active then (snapshot.map seed).toList else []

variable (floats : Floats) (cast : List UInt16 × Json Double → PatchEvent)

/-- The setters a happening calls; React renders none of them before the last. -/
def setterCalls (v : View) : Happening → List Update
  | .mount => [.dataStatus .loading, .connected false]
  | .cleanup => []
  | .opens socket => v.connectionCalls socket true
  | .lost socket => v.connectionCalls socket false
  | .frame socket data =>
    match onMessage floats data with
    | none => []
    | some event => (v.transport.listeners socket).flatMap fun k => v.eventCalls k (cast event)
  | .vehicles k snapshot => v.resolveCalls k snapshot .vehicles
  | .anomalies k snapshot => v.resolveCalls k snapshot .anomalies
  | .zones k snapshot => v.resolveCalls k snapshot .zones
  | .settle k =>
    if (v.runs k).active then
      ((v.runs k).outcome.map fun ok => .dataStatus (if ok then .ok else .error)).toList
    else []

variable {floats cast} {v v' : View}

theorem Bound.connectionCalls (bound : v.Bound) {socket : Nat}
    (made : socket < v.transport.sockets) (state : Bool) :
    v.connectionCalls socket state =
      if v.mounted = some socket then [.connected state] else [] := by
  unfold View.connectionCalls
  split
  next mounted =>
    obtain ⟨_, _, listeners, callbacks, active⟩ := bound.current socket mounted
    rw [listeners, callbacks]
    simp [active]
  next other =>
    rw [(bound.past socket made other).2.1]
    rfl

theorem shown_onEvent (v : View) (k : Nat) (event : PatchEvent) :
    (v.onEvent k event).shown = (v.eventCalls k event).foldl Shown.update v.shown := by
  cases event with
  | vehicleStateChanged | zoneCountChanged => rfl
  | anomalyDetected payload =>
    cases active : (v.runs k).active <;> simp [onEvent, eventCalls, Shown.update, active]

theorem shown_events (ks : List Nat) (v : View) (event : PatchEvent) :
    (ks.foldl (fun v k => v.onEvent k event) v).shown =
      (ks.flatMap fun k => v.eventCalls k event).foldl Shown.update v.shown := by
  induction ks generalizing v with
  | nil => rfl
  | cons k ks ih =>
    -- the handlers leave the runs, so the later ones are called as before
    have same (j : Nat) : (v.onEvent k event).eventCalls j event = v.eventCalls j event := rfl
    rw [List.foldl_cons, ih, List.flatMap_cons, List.foldl_append, shown_onEvent]
    simp only [same]

theorem shown_resolved {α : Type} (v : View) (k : Nat) (snapshot : Option α)
    (put : Fetch → EffectRun) (put_seed : App → α → App) (seed : α → Update)
    (folds : ∀ shown rows, Shown.update shown (seed rows) =
      { shown with app := put_seed shown.app rows }) :
    (v.resolve k snapshot put put_seed).shown =
      (v.resolveCalls k snapshot seed).foldl Shown.update v.shown := by
  unfold View.resolve resolveCalls
  cases snapshot with
  | none => cases (v.runs k).active <;> rfl
  | some rows =>
    dsimp only
    split
    next active =>
      rw [Option.map_some, Option.toList_some, List.foldl_cons, List.foldl_nil, folds]
      rfl
    · rfl

/-- What is shown after a happening is what the setters it calls make of what was shown. -/
theorem Tidy.shown_step (tidy : v.Tidy) {h : Happening}
    (performed : v.step floats cast h = some v') :
    v'.shown = (v.setterCalls floats cast h).foldl Shown.update v.shown := by
  cases h with
  | mount =>
    unfold View.step at performed
    dsimp only at performed
    split at performed
    · cases performed
    next unmounted =>
      cases performed
      unfold setConnected
      -- a run that has begun is active, so its badge is set
      rw [if_pos (by simp [EffectRun.begun])]
      rfl
  | cleanup =>
    unfold View.step at performed
    dsimp only at performed
    split at performed
    · cases performed
    next k mounted =>
      obtain ⟨transport, _, rfl⟩ := Option.map_eq_some_iff.mp performed
      rfl
  | opens socket =>
    unfold View.step at performed
    dsimp only at performed
    split at performed
    next fresh =>
      cases performed
      -- that the socket has opened is no part of what binds the handlers
      have bound : Bound { v with opened := Function.update v.opened socket true } :=
        ⟨tidy.past, tidy.unmounted, tidy.current⟩
      rw [bound.dispatchConnection fresh.1, setterCalls, tidy.toBound.connectionCalls fresh.1]
      dsimp only
      split <;> rfl
    · cases performed
  | lost socket =>
    unfold View.step at performed
    obtain ⟨transport, ended, rfl⟩ := Option.map_eq_some_iff.mp performed
    obtain ⟨made, rfl⟩ := Transport.step_cases ended
    rw [(tidy.toBound.close socket).dispatchConnection made, setterCalls,
      tidy.toBound.connectionCalls made]
    dsimp only
    split <;> rfl
  | frame socket data =>
    unfold View.step at performed
    obtain ⟨transport, delivered, rfl⟩ := Option.map_eq_some_iff.mp performed
    dsimp only [setterCalls]
    -- a frame that is no patch reaches no handler
    cases onMessage floats data with
    | none => rfl
    | some event => exact shown_events _ _ _
  -- an active run seeds its store, an inactive one sets nothing
  | vehicles k snapshot | anomalies k snapshot | zones k snapshot =>
    unfold View.step at performed
    dsimp only at performed
    split at performed
    · cases performed
      exact shown_resolved v k snapshot _ _ _ fun _ _ => rfl
    · cases performed
  | settle k =>
    unfold View.step at performed
    dsimp only at performed
    split at performed
    next waiting =>
      obtain ⟨ok, outcome, rfl⟩ := Option.map_eq_some_iff.mp performed
      dsimp only [setterCalls]
      rw [outcome]
      split <;> rfl
    · cases performed

end View

/-- The effect and the tree, with renders by React wherever it likes. -/
inductive Painted (floats : Floats) (cast : List UInt16 × Json Double → PatchEvent) :
    View → Tree → Prop
  | start : Painted floats cast .initial (.initial false)
  | happen {v v' : View} {t : Tree} (painted : Painted floats cast v t) (h : Happening)
      (performed : v.step floats cast h = some v') :
      Painted floats cast v' (t.updates (v.setterCalls floats cast h))
  | render {v : View} {t : Tree} (painted : Painted floats cast v t) :
      Painted floats cast v t.render

namespace Painted

variable {floats : Floats} {cast : List UInt16 × Json Double → PatchEvent} {v : View} {t : Tree}

theorem run_updates (t : Tree) (us : List Update) : t.updates us = t.run (us.map .update) := by
  rw [Tree.updates, Tree.run, List.foldl_map]
  rfl

theorem updates_map (us : List Update) : Act.updates (us.map .update) = us := by
  rw [Act.updates, List.filterMap_map]
  exact List.filterMap_some

theorem sound (painted : Painted floats cast v t) :
    v.Tidy ∧ Tree.Coherent t ∧ t.shown = v.shown := by
  induction painted with
  | start => exact ⟨View.tidy_initial, .initial false, rfl⟩
  | happen painted h performed ih =>
    obtain ⟨tidy, coherent, same⟩ := ih
    rw [run_updates]
    refine ⟨tidy.step performed, Tree.coherent_run coherent _, ?_⟩
    rw [Tree.shown_run, updates_map, same, tidy.shown_step performed]
  | render painted ih => exact ⟨ih.1, Tree.coherent_render ih.2.1, ih.2.2⟩

/-- Every run of the effect is painted. -/
theorem of_run {hs : List Happening}
    (reached : Machine.run (View.step floats cast) .initial hs = some v) :
    ∃ t, Painted floats cast v t :=
  Machine.run_invariant (P := fun _ v => ∃ t, Painted floats cast v t) ⟨_, .start⟩
    (fun _ h _ _ ⟨_, painted⟩ performed => ⟨_, painted.happen h performed⟩) reached

end Painted

theorem message_none (status : DataStatus) : dataMessage status = none ↔ status = .ok := by
  cases status <;> simp [dataMessage]

theorem ofSettled_ok (settled : Option Bool) :
    DataStatus.ofSettled settled = .ok ↔ settled = some true := by
  rcases settled with _ | _ | _ <;> simp [DataStatus.ofSettled]

theorem surface_empty {O : Type} {shown : Prop} [Decidable shown] (text : String) (items : List O) :
    (∃ m, (if shown then Surface.empty text else .listed items) = .empty m) ↔ shown := by
  split
  next holds => exact iff_of_true ⟨text, rfl⟩ holds
  next fails => exact iff_of_false nofun fails

/-- Wherever React renders in a run of the effect, the page is that of what is shown; its badge
is about the socket of the mounted run, and it says that there is nothing to see only once the
three reads of that run have come in and there is nothing. -/
theorem painted_page (floats : Floats) (cast : List UInt16 × Json Double → PatchEvent) (v : View)
    (t : Tree) (painted : Painted floats cast v t) :
    t.render.page = some v.shown.page ∧ ∀ k, v.mounted = some k →
      (v.shown.page.connection = connectionLabel true ↔
        v.opened k = true ∧ v.transport.closed k = false) ∧
      (v.shown.page.message = none ↔ (v.runs k).settled = some true) ∧
      ((v.runs k).settled = some true → (v.runs k).allFulfilled) ∧
      ((∃ m, v.shown.page.vehicles = .empty m) ↔
        (v.runs k).settled = some true ∧ v.shown.app.vehicles.entries = []) ∧
      ((∃ m, v.shown.page.zones = .empty m) ↔
        (v.runs k).settled = some true ∧ v.shown.app.zones.entries = []) := by
  obtain ⟨tidy, coherent, same⟩ := painted.sound
  refine ⟨by rw [Tree.page_render coherent, same], fun k mounted => ?_⟩
  -- the three reads of the mounted run decide between message and content
  have status : v.shown.dataStatus = .ok ↔ (v.runs k).settled = some true := by
    rw [tidy.status k mounted]
    exact ofSettled_ok _
  refine ⟨?_, (message_none _).trans status, (tidy.settled k).1, ?_, ?_⟩
  · rw [← tidy.badge k mounted]
    cases connected : v.shown.connected <;> simp [Shown.page, connectionLabel, connected]
  · rw [← status, ← List.length_eq_zero_iff]
    exact surface_empty ..
  · rw [← status, ← List.length_eq_zero_iff]
    exact surface_empty ..

theorem painted_page_strictMode : ∃ v t,
    Painted chargedFloats (fun _ => .zoneCountChanged ⟨"aisle_a", 3⟩) v t ∧
      t.render.page = some v.shown.page ∧ v.shown.page.message = none ∧
      ∃ m, v.shown.page.vehicles = .empty m := by
  obtain ⟨v, reached, found⟩ := Machine.exists_run (S := View)
    (show (Machine.run (View.step chargedFloats fun _ => .zoneCountChanged ⟨"aisle_a", 3⟩) .initial
      View.strictMode).any (fun v => decide (v.mounted = some 1) &&
        (decide ((v.runs 1).settled = some true) && v.shown.app.vehicles.entries.isEmpty)) = true
      by decide +kernel)
  simp only [Bool.and_eq_true, decide_eq_true_eq, List.isEmpty_iff] at found
  obtain ⟨t, painted⟩ := Painted.of_run reached
  obtain ⟨page, shows⟩ := painted_page _ _ v t painted
  obtain ⟨_, message, _, vehicles, _⟩ := shows 1 found.1
  exact ⟨v, t, painted, page, message.mpr found.2.1, vehicles.mpr found.2⟩

end FleetTelemetry.Frontend
