import FleetTelemetry.Dashboard.Stores
import FleetTelemetry.Frontend.Transport

/-!
# The effect of the dashboard

The one effect of `App` from mount to cleanup, as often as React runs it on the same
transport: its three reads, its subscription, its connection callback, and everything that
may still happen to a run of it that was cleaned up.
-/

namespace FleetTelemetry.Frontend

open Foundations
open Dashboard (App PatchEvent VehicleSnapshotRow AnomalySnapshotRow ZoneCountsSnapshot)

/-- A read with its `then`. -/
inductive Fetch where
  | pending
  | fulfilled
  | rejected
  deriving DecidableEq, Repr

inductive DataStatus where
  | loading
  | error
  | ok
  deriving DecidableEq, Repr

/-- A run of the effect: its `active`, its reads, and what `Promise.all` has come to. -/
structure EffectRun where
  active : Bool
  vehicles : Fetch
  anomalies : Fetch
  zones : Fetch
  settled : Option Bool

namespace EffectRun

def begun : EffectRun := ⟨true, .pending, .pending, .pending, none⟩

def allFulfilled (r : EffectRun) : Prop :=
  r.vehicles = .fulfilled ∧ r.anomalies = .fulfilled ∧ r.zones = .fulfilled

def anyRejected (r : EffectRun) : Prop :=
  r.vehicles = .rejected ∨ r.anomalies = .rejected ∨ r.zones = .rejected

instance (r : EffectRun) : Decidable r.allFulfilled := inferInstanceAs (Decidable (_ ∧ _ ∧ _))

instance (r : EffectRun) : Decidable r.anyRejected := inferInstanceAs (Decidable (_ ∨ _ ∨ _))

/-- `Promise.all` on the three reads. -/
def outcome (r : EffectRun) : Option Bool :=
  if r.anyRejected then some false else if r.allFulfilled then some true else none

/-- What `Promise.all` came to is what the reads came to. -/
def Honest (r : EffectRun) : Prop :=
  (r.settled = some true → r.allFulfilled) ∧ (r.settled = some false → r.anyRejected)

theorem outcome_some {r : EffectRun} {ok : Bool} (come : r.outcome = some ok) :
    (ok = true → r.allFulfilled) ∧ (ok = false → r.anyRejected) := by
  unfold outcome at come
  split at come
  next rejected =>
    cases come
    exact ⟨nofun, fun _ => rejected⟩
  · split at come
    next fulfilled =>
      cases come
      exact ⟨fun _ => fulfilled, nofun⟩
    · cases come

end EffectRun

def DataStatus.ofSettled : Option Bool → DataStatus
  | none => .loading
  | some true => .ok
  | some false => .error

/-- What is shown. -/
structure Shown where
  app : App
  dataStatus : DataStatus
  announcement : String
  connected : Bool

/-- The runs of the effect are numbered like the subscriptions they make. -/
structure View where
  shown : Shown
  runs : Nat → EffectRun
  mounted : Option Nat
  transport : Transport
  /-- The sockets that have opened. -/
  opened : Nat → Bool
  connectionListeners : List Nat

inductive Happening where
  | mount
  | cleanup
  | opens (socket : Nat)
  | lost (socket : Nat)
  | frame (socket : Nat) (data : MessageData)
  -- a read resolves, or it or the fold of its answer rejects
  | vehicles (k : Nat) (snapshot : Option (List VehicleSnapshotRow))
  | anomalies (k : Nat) (snapshot : Option (List AnomalySnapshotRow))
  | zones (k : Nat) (snapshot : Option ZoneCountsSnapshot)
  | settle (k : Nat)

namespace View

def initial : View :=
  ⟨⟨.initial, .loading, "", false⟩, fun _ => .begun, none, .created, fun _ => false, []⟩

def withRun (v : View) (k : Nat) (r : EffectRun) : View :=
  { v with runs := Function.update v.runs k r }

/-- The connection callback of a run. -/
def setConnected (v : View) (k : Nat) (state : Bool) : View :=
  if (v.runs k).active then { v with shown := { v.shown with connected := state } } else v

def notifyConnection (v : View) (state : Bool) : View :=
  v.connectionListeners.foldl (fun v k => v.setConnected k state) v

/-- The `open` or `close` event of a socket, on the subscriptions that listen on it. -/
def dispatchConnection (v : View) (socket : Nat) (state : Bool) : View :=
  (v.transport.listeners socket).foldl (fun v _ => v.notifyConnection state) v

/-- The `subscribe` handler of a run. -/
def onEvent (v : View) (k : Nat) (event : PatchEvent) : View :=
  { v with shown := { v.shown with
      app := v.shown.app.onEvent event
      announcement := match event with
        | .anomalyDetected payload =>
          if (v.runs k).active then
            "Anomaly on " ++ payload.vehicleId ++ ": " ++ payload.anomalyType
          else v.shown.announcement
        | _ => v.shown.announcement } }

/-- The `then` of a read. -/
def resolve {α : Type} (v : View) (k : Nat) (snapshot : Option α)
    (put : Fetch → EffectRun) (seed : App → α → App) : View :=
  match snapshot with
  | none => v.withRun k (put .rejected)
  | some rows =>
    let v' := v.withRun k (put .fulfilled)
    if (v.runs k).active then
      { v' with shown := { v'.shown with app := seed v'.shown.app rows } }
    else v'

variable (floats : Floats) (cast : List UInt16 × Json Double → PatchEvent)

def step (v : View) : Happening → Option View
  | .mount =>
    match v.mounted with
    | some _ => none
    | none =>
      let k := v.transport.sockets
      let v := { v with
        shown := { v.shown with dataStatus := .loading }
        runs := Function.update v.runs k .begun
        mounted := some k
        transport := v.transport.connect
        opened := Function.update v.opened k false
        connectionListeners := v.connectionListeners ++ [k] }
      -- the callback is called at once, while the new socket is connecting
      some (v.setConnected k false)
  | .cleanup =>
    match v.mounted with
    | none => none
    | some k =>
      (v.transport.step floats (.unsubscribe k)).map fun transport => { v with
        runs := Function.update v.runs k { v.runs k with active := false }
        mounted := none
        transport
        connectionListeners := v.connectionListeners.erase k }
  | .opens socket =>
    if socket < v.transport.sockets ∧ v.transport.closed socket = false ∧
        v.opened socket = false then
      some (dispatchConnection { v with opened := Function.update v.opened socket true }
        socket true)
    else none
  | .lost socket =>
    (v.transport.step floats (.lost socket)).map fun transport =>
      dispatchConnection { v with transport } socket false
  | .frame socket data =>
    (v.transport.step floats (.deliver socket data)).map fun transport =>
      match onMessage floats data with
      | none => { v with transport }
      | some event => (v.transport.listeners socket).foldl (fun v k => v.onEvent k (cast event))
          { v with transport }
  | .vehicles k snapshot =>
    if k < v.transport.sockets ∧ (v.runs k).vehicles = .pending then
      some (v.resolve k snapshot (fun f => { v.runs k with vehicles := f })
        fun app rows => { app with vehicles := Dashboard.seedVehicles rows })
    else none
  | .anomalies k snapshot =>
    if k < v.transport.sockets ∧ (v.runs k).anomalies = .pending then
      some (v.resolve k snapshot (fun f => { v.runs k with anomalies := f })
        fun app rows => { app with anomalies := Dashboard.seedAnomalies rows })
    else none
  | .zones k snapshot =>
    if k < v.transport.sockets ∧ (v.runs k).zones = .pending then
      some (v.resolve k snapshot (fun f => { v.runs k with zones := f })
        fun app counts => { app with zones := Dashboard.seedZones counts })
    else none
  | .settle k =>
    if k < v.transport.sockets ∧ (v.runs k).settled = none then
      (v.runs k).outcome.map fun ok =>
        let v' := v.withRun k { v.runs k with settled := some ok }
        if (v.runs k).active then
          { v' with shown := { v'.shown with dataStatus := if ok then .ok else .error } }
        else v'
    else none

/-- Only the run that is mounted listens, acts and has a socket that may be open. -/
structure Bound (v : View) : Prop where
  past : ∀ k < v.transport.sockets, v.mounted ≠ some k →
    v.transport.closed k = true ∧ v.transport.listeners k = [] ∧ (v.runs k).active = false
  unmounted : v.mounted = none → v.connectionListeners = []
  current : ∀ k, v.mounted = some k → k + 1 = v.transport.sockets ∧
    v.transport.socket = some k ∧ v.transport.listeners k = [k] ∧
    v.connectionListeners = [k] ∧ (v.runs k).active = true

/-- What every happening preserves: the badge and the message are about the mounted run. -/
structure Tidy (v : View) : Prop extends Bound v where
  badge : ∀ k, v.mounted = some k →
    (v.shown.connected = true ↔ v.opened k = true ∧ v.transport.closed k = false)
  status : ∀ k, v.mounted = some k → v.shown.dataStatus = .ofSettled (v.runs k).settled
  settled : ∀ k, (v.runs k).Honest

theorem tidy_initial : initial.Tidy where
  past k made := absurd made (Nat.not_lt_zero k)
  unmounted _ := rfl
  current := nofun
  badge := nofun
  status := nofun
  settled _ := ⟨nofun, nofun⟩

theorem runs_withRun (v : View) (k : Nat) (r : EffectRun) (j : Nat) :
    (v.withRun k r).runs j = if j = k then r else v.runs j := Function.update_apply ..

theorem Bound.withRun {v : View} (bound : v.Bound) {k : Nat} {r : EffectRun}
    (active : r.active = (v.runs k).active) : Bound (v.withRun k r) := by
  have acts (j : Nat) : ((v.withRun k r).runs j).active = (v.runs j).active := by
    rw [runs_withRun]
    split
    next same => rw [active, same]
    · rfl
  refine ⟨?_, bound.unmounted, ?_⟩
  · intro j made other
    rw [acts]
    exact bound.past j made other
  · intro j mounted
    rw [acts]
    exact bound.current j mounted

theorem Bound.close {v : View} (bound : v.Bound) (socket : Nat) :
    Bound { v with transport := v.transport.close socket } := by
  refine ⟨?_, bound.unmounted, bound.current⟩
  intro j before other
  obtain ⟨closed, silent, inactive⟩ := bound.past j before other
  refine ⟨?_, silent, inactive⟩
  rw [Transport.closed_close, closed, ite_self]

/-- On the socket of the mounted run the badge changes, and on any other nothing does. -/
theorem Bound.dispatchConnection {v : View} (bound : v.Bound) {socket : Nat}
    (made : socket < v.transport.sockets) (state : Bool) :
    v.dispatchConnection socket state =
      if v.mounted = some socket then { v with shown := { v.shown with connected := state } }
      else v := by
  unfold View.dispatchConnection
  split
  next mounted =>
    obtain ⟨_, _, listeners, callbacks, active⟩ := bound.current socket mounted
    have notified : v.notifyConnection state = v.setConnected socket state := by
      rw [notifyConnection, callbacks]
      rfl
    rw [listeners, List.foldl_cons, List.foldl_nil, notified, setConnected, if_pos active]
  next other =>
    rw [(bound.past socket made other).2.1, List.foldl_nil]

namespace Tidy

variable {v v' : View}

theorem withApp (tidy : v.Tidy) (app : App) (announcement : String) :
    Tidy { v with shown := { v.shown with app, announcement } } :=
  ⟨⟨tidy.past, tidy.unmounted, tidy.current⟩, tidy.badge, tidy.status, tidy.settled⟩

/-- A run is changed in its reads only. -/
theorem withRun (tidy : v.Tidy) {k : Nat} {r : EffectRun} (active : r.active = (v.runs k).active)
    (settled : r.settled = (v.runs k).settled)
    (honest : r.Honest) :
    Tidy (v.withRun k r) := by
  refine ⟨tidy.toBound.withRun active, tidy.badge, ?_, ?_⟩
  · intro j mounted
    rw [runs_withRun]
    split
    next same => rw [settled, ← same]; exact tidy.status j mounted
    · exact tidy.status j mounted
  · intro j
    rw [runs_withRun]
    split
    · exact honest
    · exact tidy.settled j

theorem resolve (tidy : v.Tidy) {α : Type} {k : Nat} {snapshot : Option α}
    {put : Fetch → EffectRun} {seed : App → α → App}
    (active : ∀ f, (put f).active = (v.runs k).active)
    (settled : ∀ f, (put f).settled = (v.runs k).settled)
    (honest : ∀ f, (put f).Honest) :
    Tidy (v.resolve k snapshot put seed) := by
  unfold View.resolve
  cases snapshot with
  | none => exact tidy.withRun (active _) (settled _) (honest _)
  | some rows =>
    have done := tidy.withRun (active .fulfilled) (settled .fulfilled) (honest .fulfilled)
    dsimp only
    split
    · exact done.withApp _ _
    · exact done

end Tidy

/-- The handlers change the stores and the announcement. -/
theorem foldl_onEvent (ks : List Nat) (v : View) (event : PatchEvent) :
    ∃ app announcement, ks.foldl (fun v k => v.onEvent k event) v =
      { v with shown := { v.shown with app, announcement } } := by
  induction ks generalizing v with
  | nil => exact ⟨v.shown.app, v.shown.announcement, rfl⟩
  | cons k ks ih =>
    obtain ⟨app, announcement, folded⟩ := ih (v.onEvent k event)
    exact ⟨app, announcement, folded⟩

namespace Tidy

variable {floats : Floats} {cast : List UInt16 × Json Double → PatchEvent} {v v' : View}

theorem mount (tidy : v.Tidy) (performed : v.step floats cast .mount = some v') : v'.Tidy := by
  unfold View.step at performed
  dsimp only at performed
  split at performed
  · cases performed
  next unmounted =>
    cases performed
    -- the new run has the number of its socket
    have run (j : Nat) : Function.update v.runs v.transport.sockets EffectRun.begun j =
        if j = v.transport.sockets then .begun else v.runs j := Function.update_apply ..
    have active : (Function.update v.runs v.transport.sockets EffectRun.begun
        v.transport.sockets).active = true := by
      rw [Function.update_self]
      rfl
    unfold setConnected
    dsimp only
    rw [if_pos active]
    refine ⟨⟨?_, nofun, ?_⟩, ?_, ?_, ?_⟩
    -- an earlier run is closed, silent and inactive already, mounted or not
    · intro j made other
      have old : j ≠ v.transport.sockets := fun same => other (by rw [same])
      have before : j < v.transport.sockets := Nat.lt_of_le_of_ne (Nat.le_of_lt_succ made) old
      obtain ⟨closed, listeners, inactive⟩ := tidy.past j before (by rw [unmounted]; nofun)
      refine ⟨?_, ?_, ?_⟩
      · rw [Transport.closed_connect, if_neg old]
        exact closed
      · rw [Transport.listeners_connect, if_neg old]
        exact listeners
      · dsimp only
        rw [run, if_neg old]
        exact inactive
    -- the new run listens to its own socket, and the shared handlers are its own
    · rintro j ⟨⟩
      refine ⟨rfl, rfl, ?_, ?_, active⟩
      · rw [Transport.listeners_connect, if_pos rfl]
      · dsimp only
        rw [tidy.unmounted unmounted, List.nil_append]
    · rintro j ⟨⟩
      simp
    · rintro j ⟨⟩
      dsimp only
      rw [Function.update_self]
      rfl
    · intro j
      dsimp only
      rw [run]
      split
      · exact ⟨nofun, nofun⟩
      · exact tidy.settled j

theorem cleanup (tidy : v.Tidy) (performed : v.step floats cast .cleanup = some v') :
    v'.Tidy := by
  unfold View.step at performed
  dsimp only at performed
  split at performed
  · cases performed
  next k mounted =>
    obtain ⟨transport, unsubscribed, rfl⟩ := Option.map_eq_some_iff.mp performed
    obtain ⟨last, shared, listeners, callbacks, _⟩ := tidy.current k mounted
    obtain ⟨made, ⟨unset, _⟩ | ⟨socket, same, rfl⟩⟩ := Transport.step_cases unsubscribed
    -- the mounted run has subscribed, so there is a socket to close
    · rw [shared] at unset
      cases unset
    obtain rfl : k = socket := Option.some.inj (shared.symm.trans same)
    have run (j : Nat) : Function.update v.runs k { v.runs k with active := false } j =
        if j = k then { v.runs k with active := false } else v.runs j := Function.update_apply ..
    refine ⟨⟨?_, ?_, nofun⟩, nofun, nofun, ?_⟩
    -- the cleaned run joins those that are past
    · intro j before _
      by_cases own : j = k
      · subst own
        refine ⟨?_, ?_, ?_⟩
        · rw [Transport.closed_unsubscribe, if_pos rfl]
        · refine (Transport.listeners_removeEventListener v.transport j j j).trans ?_
          rw [if_pos rfl, listeners]
          exact List.erase_cons_head ..
        · dsimp only
          rw [Function.update_self]
      -- the others were past before, and the cleanup is of one socket
      · have other : v.mounted ≠ some j := fun same =>
          own (Option.some.inj (same.symm.trans mounted))
        obtain ⟨closed, silent, inactive⟩ := tidy.past j before other
        refine ⟨?_, ?_, ?_⟩
        · rw [Transport.closed_unsubscribe, if_neg own]
          exact closed
        · refine (Transport.listeners_removeEventListener v.transport k j k).trans ?_
          rw [if_neg own]
          exact silent
        · dsimp only
          rw [run, if_neg own]
          exact inactive
    · intro _
      dsimp only
      rw [callbacks]
      exact List.erase_cons_head ..
    · intro j
      dsimp only
      rw [run]
      split
      next same => exact tidy.settled k
      · exact tidy.settled j

/-- A socket that is not closed is the one of the mounted run. -/
theorem mounted_of_open (tidy : v.Tidy) {socket : Nat} (made : socket < v.transport.sockets)
    (isOpen : v.transport.closed socket = false) : v.mounted = some socket := by
  by_contra other
  rw [(tidy.past socket made other).1] at isOpen
  cases isOpen

theorem opens (tidy : v.Tidy) {socket : Nat}
    (performed : v.step floats cast (.opens socket) = some v') : v'.Tidy := by
  unfold View.step at performed
  dsimp only at performed
  split at performed
  next fresh =>
    obtain ⟨made, isOpen, _⟩ := fresh
    -- only the mounted run has an open socket, so the badge is its own
    have mounted := tidy.mounted_of_open made isOpen
    have bound : Bound { v with opened := Function.update v.opened socket true } :=
      ⟨tidy.past, tidy.unmounted, tidy.current⟩
    rw [bound.dispatchConnection made, if_pos mounted] at performed
    cases performed
    refine ⟨⟨tidy.past, tidy.unmounted, tidy.current⟩, ?_, tidy.status, tidy.settled⟩
    intro j current
    obtain rfl : socket = j := Option.some.inj (mounted.symm.trans current)
    simp [isOpen]
  · cases performed

theorem lost (tidy : v.Tidy) {socket : Nat}
    (performed : v.step floats cast (.lost socket) = some v') : v'.Tidy := by
  unfold View.step at performed
  obtain ⟨transport, ended, rfl⟩ := Option.map_eq_some_iff.mp performed
  obtain ⟨made, rfl⟩ := Transport.step_cases ended
  have bound := tidy.toBound.close socket
  rw [bound.dispatchConnection made]
  split
  -- the badge goes out with the socket of the mounted run
  next mounted =>
    refine ⟨⟨bound.past, bound.unmounted, bound.current⟩, ?_, tidy.status, tidy.settled⟩
    intro j current
    obtain rfl : socket = j := Option.some.inj (mounted.symm.trans current)
    simp [Transport.closed_close]
  -- a socket of an earlier run changes nothing that is shown
  next other =>
    refine ⟨bound, ?_, tidy.status, tidy.settled⟩
    intro j current
    have apart : j ≠ socket := by
      rintro rfl
      exact other current
    rw [Transport.closed_close, if_neg apart]
    exact tidy.badge j current

theorem frame (tidy : v.Tidy) {socket : Nat} {data : MessageData}
    (performed : v.step floats cast (.frame socket data) = some v') : v'.Tidy := by
  unfold View.step at performed
  obtain ⟨transport, delivered, rfl⟩ := Option.map_eq_some_iff.mp performed
  obtain ⟨_, _, ⟨malformed, rfl⟩ | ⟨event, decoded, rfl⟩⟩ := Transport.step_cases delivered
  · rw [malformed]
    exact tidy
  · have called : Tidy { v with transport := v.transport.dispatch socket event } :=
      ⟨⟨tidy.past, tidy.unmounted, tidy.current⟩, tidy.badge, tidy.status, tidy.settled⟩
    rw [decoded]
    dsimp only
    obtain ⟨app, announcement, folded⟩ := foldl_onEvent (v.transport.listeners socket)
      { v with transport := v.transport.dispatch socket event } (cast event)
    rw [folded]
    exact called.withApp app announcement

/-- While a read is pending `Promise.all` has not fulfilled, and any rejection stays. -/
theorem read (tidy : v.Tidy) {k : Nat} (pending : ¬(v.runs k).allFulfilled)
    (put : Fetch → EffectRun) (settled : ∀ f, (put f).settled = (v.runs k).settled)
    (kept : ∀ f, (v.runs k).anyRejected → (put f).anyRejected) (f : Fetch) : (put f).Honest :=
  ⟨fun all => (pending ((tidy.settled k).1 ((settled f).symm.trans all))).elim,
    fun any => kept f ((tidy.settled k).2 ((settled f).symm.trans any))⟩

theorem settle (tidy : v.Tidy) {k : Nat}
    (performed : v.step floats cast (.settle k) = some v') : v'.Tidy := by
  unfold View.step at performed
  dsimp only at performed
  split at performed
  next waiting =>
    obtain ⟨ok, outcome, rfl⟩ := Option.map_eq_some_iff.mp performed
    obtain ⟨fulfilled, rejected⟩ := EffectRun.outcome_some outcome
    have bound := tidy.toBound.withRun (k := k) (r := { v.runs k with settled := some ok }) rfl
    have settled (j : Nat) :
        ((v.withRun k { v.runs k with settled := some ok }).runs j).Honest := by
      rw [runs_withRun]
      split
      · exact ⟨fun all => fulfilled (Option.some.inj all),
          fun any => rejected (Option.some.inj any)⟩
      · exact tidy.settled j
    split
    next active =>
      refine ⟨⟨bound.past, bound.unmounted, bound.current⟩, tidy.badge, ?_, settled⟩
      intro j mounted
      -- only the mounted run is active
      have own : j = k := by
        by_contra other
        have apart : v.mounted ≠ some k := fun same =>
          other (Option.some.inj (mounted.symm.trans same))
        rw [(tidy.past k waiting.1 apart).2.2] at active
        cases active
      dsimp only
      rw [runs_withRun, if_pos own]
      cases ok <;> rfl
    next inactive =>
      refine ⟨bound, tidy.badge, ?_, settled⟩
      intro j mounted
      have other : j ≠ k := by
        rintro rfl
        exact inactive (tidy.current j mounted).2.2.2.2
      rw [runs_withRun, if_neg other]
      exact tidy.status j mounted
  · cases performed

theorem step (tidy : v.Tidy) {h : Happening} (performed : v.step floats cast h = some v') :
    v'.Tidy := by
  cases h with
  | mount => exact tidy.mount performed
  | cleanup => exact tidy.cleanup performed
  | opens => exact tidy.opens performed
  | lost => exact tidy.lost performed
  | frame => exact tidy.frame performed
  | settle => exact tidy.settle performed
  -- each of the three reads fills its own slot, which was pending
  | vehicles k =>
    unfold View.step at performed
    dsimp only at performed
    split at performed
    next waiting =>
      cases performed
      obtain ⟨_, pending⟩ := waiting
      refine tidy.resolve (fun _ => rfl) (fun _ => rfl)
        (tidy.read ?_ (fun f => { v.runs k with vehicles := f }) (fun _ => rfl) ?_)
      · simp [EffectRun.allFulfilled, pending]
      · rintro f (rejected | rest)
        · rw [pending] at rejected
          cases rejected
        · exact .inr rest
    · cases performed
  | anomalies k =>
    unfold View.step at performed
    dsimp only at performed
    split at performed
    next waiting =>
      cases performed
      obtain ⟨_, pending⟩ := waiting
      refine tidy.resolve (fun _ => rfl) (fun _ => rfl)
        (tidy.read ?_ (fun f => { v.runs k with anomalies := f }) (fun _ => rfl) ?_)
      · simp [EffectRun.allFulfilled, pending]
      · rintro f (vehicles | rejected | zones)
        · exact .inl vehicles
        · rw [pending] at rejected
          cases rejected
        · exact .inr (.inr zones)
    · cases performed
  | zones k =>
    unfold View.step at performed
    dsimp only at performed
    split at performed
    next waiting =>
      cases performed
      obtain ⟨_, pending⟩ := waiting
      refine tidy.resolve (fun _ => rfl) (fun _ => rfl)
        (tidy.read ?_ (fun f => { v.runs k with zones := f }) (fun _ => rfl) ?_)
      · simp [EffectRun.allFulfilled, pending]
      · rintro f (vehicles | anomalies | rejected)
        · exact .inl vehicles
        · exact .inr (.inl anomalies)
        · rw [pending] at rejected
          cases rejected
    · cases performed

end Tidy

theorem tidy_run {floats : Floats} {cast : List UInt16 × Json Double → PatchEvent}
    {hs : List Happening} {v : View}
    (reached : Machine.run (step floats cast) initial hs = some v) : v.Tidy :=
  Machine.run_invariant (P := fun _ v => v.Tidy) tidy_initial
    (fun _ _ _ _ tidy performed => tidy.step performed) reached

end View

/-- What a happening is for the transport, after so many subscriptions. -/
def Happening.transport (subscriptions : Nat) : Happening → Option TransportAction
  | .mount => some .subscribe
  | .cleanup => some (.unsubscribe (subscriptions - 1))
  | .lost socket => some (.lost socket)
  | .frame socket data => some (.deliver socket data)
  | _ => none

def Happening.isMount : Happening → Bool
  | .mount => true
  | _ => false

/-- The subscriptions of a run, and what it asks of the transport. -/
def transportActions (hs : List Happening) : Nat × List TransportAction :=
  hs.foldl (fun (made, actions) h =>
    (if h.isMount then made + 1 else made, actions ++ (h.transport made).toList)) (0, [])

namespace View

variable {floats : Floats} {cast : List UInt16 × Json Double → PatchEvent}

theorem transport_setConnected (v : View) (k : Nat) (state : Bool) :
    (v.setConnected k state).transport = v.transport := by
  unfold setConnected
  split <;> rfl

theorem transport_notifyConnection (v : View) (state : Bool) :
    (v.notifyConnection state).transport = v.transport := by
  have folded (ks : List Nat) (v : View) :
      (ks.foldl (fun v k => v.setConnected k state) v).transport = v.transport := by
    induction ks generalizing v with
    | nil => rfl
    | cons k ks ih => exact (ih _).trans (transport_setConnected v k state)
  exact folded v.connectionListeners v

theorem transport_dispatchConnection (v : View) (socket : Nat) (state : Bool) :
    (v.dispatchConnection socket state).transport = v.transport := by
  have folded (ks : List Nat) (v : View) :
      (ks.foldl (fun v _ => v.notifyConnection state) v).transport = v.transport := by
    induction ks generalizing v with
    | nil => rfl
    | cons k ks ih => exact (ih _).trans (transport_notifyConnection v state)
  exact folded (v.transport.listeners socket) v

theorem transport_resolve {α : Type} (v : View) (k : Nat) (snapshot : Option α)
    (put : Fetch → EffectRun) (seed : App → α → App) :
    (v.resolve k snapshot put seed).transport = v.transport := by
  unfold View.resolve
  cases snapshot with
  | none => rfl
  | some rows =>
    dsimp only
    split <;> rfl

/-- What a performed happening asks of the transport is performed there, and within the
condition under which subscriptions are independent. -/
theorem Tidy.transport {v v' : View} (tidy : v.Tidy) {h : Happening}
    (performed : v.step floats cast h = some v') :
    (v'.transport.sockets = if h.isMount then v.transport.sockets + 1
      else v.transport.sockets) ∧
    match h.transport v.transport.sockets with
    | none => v'.transport = v.transport
    | some a => v.transport.step floats a = some v'.transport ∧ v.transport.OwnLast a := by
  cases h with
  -- one subscription more, of the socket that is made
  | mount =>
    unfold View.step at performed
    dsimp only at performed
    split at performed
    · cases performed
    · cases performed
      refine ⟨?_, ?_, trivial⟩
      · rw [transport_setConnected]
        rfl
      · rw [transport_setConnected]
        rfl
  -- the cleaned run owns the shared socket: it is the last one subscribed
  | cleanup =>
    unfold View.step at performed
    dsimp only at performed
    split at performed
    · cases performed
    next k mounted =>
      obtain ⟨transport, unsubscribed, rfl⟩ := Option.map_eq_some_iff.mp performed
      obtain ⟨last, shared, _⟩ := tidy.current k mounted
      have own : v.transport.sockets - 1 = k := by omega
      refine ⟨?_, ?_, ?_⟩
      · obtain ⟨_, ⟨_, rfl⟩ | ⟨socket, _, rfl⟩⟩ := Transport.step_cases unsubscribed
        · rfl
        · rfl
      · rw [own]
        exact unsubscribed
      · rw [own]
        exact .inl shared
  -- opening is no action of the transport: only its handlers are called
  | opens socket =>
    unfold View.step at performed
    dsimp only at performed
    split at performed
    · cases performed
      refine ⟨?_, ?_⟩
      · rw [transport_dispatchConnection]
        rfl
      · exact transport_dispatchConnection _ _ _
    · cases performed
  | lost socket =>
    unfold View.step at performed
    obtain ⟨transport, ended, rfl⟩ := Option.map_eq_some_iff.mp performed
    rw [transport_dispatchConnection]
    refine ⟨?_, ended, trivial⟩
    obtain ⟨_, rfl⟩ := Transport.step_cases ended
    rfl
  | frame socket data =>
    unfold View.step at performed
    obtain ⟨transport, delivered, rfl⟩ := Option.map_eq_some_iff.mp performed
    obtain ⟨_, _, ⟨malformed, rfl⟩ | ⟨event, decoded, rfl⟩⟩ := Transport.step_cases delivered
    · rw [malformed]
      exact ⟨rfl, delivered, trivial⟩
    -- the handlers that the frame reaches write to the stores only
    · rw [decoded]
      dsimp only
      obtain ⟨app, announcement, folded⟩ := foldl_onEvent (v.transport.listeners socket)
        { v with transport := v.transport.dispatch socket event } (cast event)
      rw [folded]
      exact ⟨rfl, delivered, trivial⟩
  -- reads and their settling do not touch the transport
  | vehicles k | anomalies k | zones k =>
    unfold View.step at performed
    dsimp only at performed
    split at performed
    · cases performed
      exact ⟨congrArg Transport.sockets (transport_resolve ..), transport_resolve ..⟩
    · cases performed
  | settle k =>
    unfold View.step at performed
    dsimp only at performed
    split at performed
    · obtain ⟨ok, _, rfl⟩ := Option.map_eq_some_iff.mp performed
      split <;> exact ⟨rfl, rfl⟩
    · cases performed

/-- A page under `StrictMode`: the effect is run, cleaned up and run again, and the first run's
reads come in late. -/
def strictMode : List Happening :=
  [.mount, .cleanup, .mount, .opens 1, .vehicles 0 none, .vehicles 1 (some []), .settle 0,
    .anomalies 1 (some []), .zones 0 (some [("aisle_a", 3)]), .zones 1 (some []), .settle 1]

/-- What the effect has asked of the transport. -/
structure Asked (floats : Floats) (v : View) (asked : Nat × List TransportAction) : Prop where
  subscriptions : asked.1 = v.transport.sockets
  reached : Machine.run (Transport.step floats) .created asked.2 = some v.transport
  own : Machine.Meets Transport.OwnLast (Transport.step floats) .created asked.2

/-- `App` keeps to what independence of its subscriptions needs: in every run of its effect,
however often it is mounted, each handler is called with exactly the frames its own socket
delivers before its cleanup, and no socket but that of the mounted run is left open. -/
theorem effect_independent (floats : Floats) (cast : List UInt16 × Json Double → PatchEvent)
    (hs : List Happening) (v : View)
    (reached : Machine.run (step floats cast) initial hs = some v) :
    Machine.run (Transport.step floats) .created (transportActions hs).2 = some v.transport ∧
      Independent floats (transportActions hs).2 ∧
      ∀ k < v.transport.sockets, v.mounted ≠ some k → v.transport.closed k = true := by
  have both : v.Tidy ∧ Asked floats v (transportActions hs) := by
    refine Machine.run_invariant (P := fun hs v => v.Tidy ∧ Asked floats v (transportActions hs))
      ⟨tidy_initial, rfl, rfl, trivial⟩ ?_ reached
    intro hs h mid v ⟨tidy, asked⟩ performed
    refine ⟨tidy.step performed, ?_⟩
    obtain ⟨sockets, passed⟩ := tidy.transport performed
    have longer : transportActions (hs ++ [h]) =
        (if h.isMount then (transportActions hs).1 + 1 else (transportActions hs).1,
          (transportActions hs).2 ++ (h.transport (transportActions hs).1).toList) := by
      unfold transportActions
      rw [List.foldl_append]
      rfl
    rw [longer, asked.subscriptions]
    -- an action is performed on both sides, a happening without one on neither
    refine ⟨sockets.symm, ?_, ?_⟩
    · cases asks : h.transport mid.transport.sockets with
      | none =>
        rw [asks] at passed
        dsimp only at passed ⊢
        rw [Option.toList_none, List.append_nil, asked.reached, passed]
      | some a =>
        rw [asks] at passed
        dsimp only at passed ⊢
        rw [Option.toList_some, Machine.run_append, asked.reached, Option.bind_some,
          Machine.run_singleton, passed.1]
    · cases asks : h.transport mid.transport.sockets with
      | none =>
        dsimp only
        rw [Option.toList_none, List.append_nil]
        exact asked.own
      | some a =>
        rw [asks] at passed
        exact asked.own.snoc asked.reached passed.2
  obtain ⟨tidy, asked⟩ := both
  exact ⟨asked.reached, (independent_iff floats _ _ asked.reached).mpr asked.own,
    fun k made other => (tidy.past k made other).1⟩

/-- The late reads fail, and the message and the badge are those of the second run. -/
theorem effect_independent_strictMode : ∃ v,
    Machine.run (step chargedFloats fun _ => .zoneCountChanged ⟨"aisle_a", 3⟩) initial
      strictMode = some v ∧ Independent chargedFloats [.subscribe, .unsubscribe 0, .subscribe] := by
  obtain ⟨v, reached, _⟩ := Machine.exists_run (S := View)
    (show (Machine.run (step chargedFloats fun _ => .zoneCountChanged ⟨"aisle_a", 3⟩) initial
      strictMode).any (fun _ => true) = true by decide +kernel)
  exact ⟨v, reached, (effect_independent chargedFloats _ strictMode v reached).2.1⟩

/-- The badge shows whether the socket of the mounted run is open, and the message what its
three reads have come to. -/
theorem effect_shown (floats : Floats) (cast : List UInt16 × Json Double → PatchEvent)
    (hs : List Happening) (v : View)
    (reached : Machine.run (step floats cast) initial hs = some v) (k : Nat)
    (mounted : v.mounted = some k) :
    (v.shown.connected = true ↔ v.opened k = true ∧ v.transport.closed k = false) ∧
      (v.shown.dataStatus = .ok → (v.runs k).allFulfilled) ∧
      (v.shown.dataStatus = .error → (v.runs k).anyRejected) ∧
      (v.shown.dataStatus = .loading ↔ (v.runs k).settled = none) := by
  have tidy := tidy_run reached
  obtain ⟨fulfilled, rejected⟩ := tidy.settled k
  refine ⟨tidy.badge k mounted, ?_⟩
  rw [tidy.status k mounted]
  -- the message is set once, when all three reads have settled
  cases settled : (v.runs k).settled with
  | none => exact ⟨nofun, nofun, iff_of_true rfl rfl⟩
  | some ok =>
    cases ok with
    | true => exact ⟨fun _ => fulfilled settled, nofun, iff_of_false nofun nofun⟩
    | false => exact ⟨nofun, fun _ => rejected settled, iff_of_false nofun nofun⟩

theorem effect_shown_strictMode : ∃ v,
    Machine.run (step chargedFloats fun _ => .zoneCountChanged ⟨"aisle_a", 3⟩) initial
      strictMode = some v ∧ v.shown.connected = true ∧ (v.runs 1).allFulfilled := by
  obtain ⟨v, reached, found⟩ := Machine.exists_run (S := View)
    (show (Machine.run (step chargedFloats fun _ => .zoneCountChanged ⟨"aisle_a", 3⟩) initial
      strictMode).any (fun v => decide (v.mounted = some 1) && (v.opened 1 &&
        !v.transport.closed 1) && decide (v.shown.dataStatus = .ok)) = true by decide +kernel)
  simp only [Bool.and_eq_true, decide_eq_true_eq, Bool.not_eq_true'] at found
  obtain ⟨badge, fulfilled, _⟩ :=
    effect_shown chargedFloats _ strictMode v reached 1 found.1.1
  exact ⟨v, reached, badge.mpr found.1.2, fulfilled found.2⟩

end View

/-- The run a happening is of; a socket is the one of its run. -/
def Happening.run : Happening → Option Nat
  | .mount | .cleanup => none
  | .opens k | .lost k | .frame k _ | .vehicles k _ | .anomalies k _ | .zones k _ | .settle k =>
    some k

namespace View

variable {floats : Floats} {cast : List UInt16 × Json Double → PatchEvent}

theorem shown_resolve {α : Type} {v : View} {k : Nat} (inactive : (v.runs k).active = false)
    (snapshot : Option α) (put : Fetch → EffectRun) (seed : App → α → App) :
    (v.resolve k snapshot put seed).shown = v.shown ∧
      (v.resolve k snapshot put seed).mounted = v.mounted := by
  unfold View.resolve
  cases snapshot with
  | none => exact ⟨rfl, rfl⟩
  | some rows =>
    dsimp only
    rw [if_neg (by rw [inactive]; nofun)]
    exact ⟨rfl, rfl⟩

theorem Tidy.stale {v v' : View} (tidy : v.Tidy) {h : Happening}
    (performed : v.step floats cast h = some v') {k : Nat} (of : h.run = some k)
    (other : v.mounted ≠ some k) : v'.shown = v.shown ∧ v'.mounted = v.mounted := by
  cases h with
  | mount | cleanup => cases of
  -- a socket of a past run is closed, so it neither opens nor gets a frame
  | opens socket =>
    cases of
    unfold View.step at performed
    dsimp only at performed
    split at performed
    next fresh => exact (other (tidy.mounted_of_open fresh.1 fresh.2.1)).elim
    · cases performed
  -- it may still be reported lost, to nobody who shows it
  | lost socket =>
    cases of
    unfold View.step at performed
    obtain ⟨transport, ended, rfl⟩ := Option.map_eq_some_iff.mp performed
    obtain ⟨made, rfl⟩ := Transport.step_cases ended
    rw [(tidy.toBound.close k).dispatchConnection made, if_neg other]
    exact ⟨rfl, rfl⟩
  | frame socket data =>
    cases of
    unfold View.step at performed
    obtain ⟨transport, delivered, rfl⟩ := Option.map_eq_some_iff.mp performed
    obtain ⟨made, isOpen, _⟩ := Transport.step_cases delivered
    exact (other (tidy.mounted_of_open made isOpen)).elim
  -- a late read finds its run inactive, and sets nothing
  | vehicles | anomalies | zones =>
    cases of
    unfold View.step at performed
    dsimp only at performed
    split at performed
    next waiting =>
      cases performed
      exact shown_resolve (tidy.past k waiting.1 other).2.2 _ _ _
    · cases performed
  | settle =>
    cases of
    unfold View.step at performed
    dsimp only at performed
    split at performed
    next waiting =>
      obtain ⟨ok, _, rfl⟩ := Option.map_eq_some_iff.mp performed
      rw [if_neg (by rw [(tidy.past k waiting.1 other).2.2]; nofun)]
      exact ⟨rfl, rfl⟩
    · cases performed

/-- Reads, frames and connection events of runs that are not the mounted one, in whatever
number and order they still come, leave everything that is shown as it is. -/
theorem effect_stale (floats : Floats) (cast : List UInt16 × Json Double → PatchEvent)
    (hs later : List Happening) (v v' : View)
    (reached : Machine.run (step floats cast) initial hs = some v)
    (continued : Machine.run (step floats cast) v later = some v')
    (others : ∀ h ∈ later, ∃ k, h.run = some k ∧ v.mounted ≠ some k) : v'.shown = v.shown := by
  have tidy := tidy_run reached
  clear reached
  -- what is mounted stays mounted, so the others stay others
  induction later generalizing v with
  | nil =>
    cases continued
    rfl
  | cons h later ih =>
    obtain ⟨mid, performed, rest⟩ := Option.bind_eq_some_iff.mp continued
    obtain ⟨k, of, other⟩ := others h List.mem_cons_self
    obtain ⟨shown, mounted⟩ := tidy.stale performed of other
    refine (ih mid rest ?_ (tidy.step performed)).trans shown
    intro h' member
    rw [mounted]
    exact others h' (List.mem_cons_of_mem h member)

/-- The seed that comes in after the cleanup is not taken. -/
theorem effect_stale_late : ∃ v v',
    Machine.run (step chargedFloats fun _ => .zoneCountChanged ⟨"aisle_a", 3⟩) initial
        [.mount, .opens 0, .cleanup] = some v ∧
      Machine.run (step chargedFloats fun _ => .zoneCountChanged ⟨"aisle_a", 3⟩) v
        [.zones 0 (some [("aisle_a", 3)]), .lost 0] = some v' ∧ v'.shown = v.shown := by
  obtain ⟨v, reached, found⟩ := Machine.exists_run (S := View)
    (show (Machine.run (step chargedFloats fun _ => .zoneCountChanged ⟨"aisle_a", 3⟩) initial
      [.mount, .opens 0, .cleanup]).any (fun v => decide (v.mounted = none) &&
        (Machine.run (step chargedFloats fun _ => .zoneCountChanged ⟨"aisle_a", 3⟩) v
          [.zones 0 (some [("aisle_a", 3)]), .lost 0]).isSome) = true by decide +kernel)
  rw [Bool.and_eq_true, decide_eq_true_eq] at found
  obtain ⟨v', continued⟩ := Option.isSome_iff_exists.mp found.2
  refine ⟨v, v', reached, continued, effect_stale chargedFloats _ _ _ v v' reached continued ?_⟩
  intro h member
  refine ⟨0, ?_, by rw [found.1]; nofun⟩
  rcases List.mem_cons.mp member with rfl | last
  · rfl
  · obtain rfl := List.mem_singleton.mp last
    rfl

end View

end FleetTelemetry.Frontend
