import FleetTelemetry.Foundations.Histories
import FleetTelemetry.Ingest.CommsLoss
import FleetTelemetry.Ingest.Serializable
import FleetTelemetry.Service.Independence

/-!
# What the anomalies are evidence of

The prior reading of an event and the silence a sweep looks for are read without a lock, so
either may be out of date when its transaction commits. What it read was committed once, and
so the anomalies of every interleaving are those of an ingest that goes through the events in
commit order and looks, for each, at the readings after some earlier part of them. No anomaly
is about something that never happened.
-/

namespace FleetTelemetry.Ingest

open Foundations Service

/-- The current row of the vehicle once these events are committed. -/
def reading (events : List TelemetryEvent) (vehicleId : String) : Option CurrentState :=
  (lastEvent events vehicleId).map TelemetryEvent.currentState

/-- The ingest without transactions: the events in commit order, each judged against the
readings of some earlier part, and sweeps that look at such a part too. -/
inductive Verdicts : List TelemetryEvent → List Anomaly → Prop
  | nil : Verdicts [] []
  | judged {events as} (rest : Verdicts events as) (event : TelemetryEvent)
      {earlier : List TelemetryEvent} (seen : earlier <+: events) {fired : List Firing}
      (detected : detectAnomalies event (reading earlier event.vehicleId) = .ok fired) :
      Verdicts (events ++ [event]) (as ++ fired.map event.anomaly)
  | swept {events as} (rest : Verdicts events as) (now : Int) {earlier : List TelemetryEvent}
      (seen : earlier <+: events) {vs : List String} (once : vs.Nodup)
      (silent : ∀ v ∈ vs, ∃ row, reading earlier v = some row ∧
        row.recordedAt < now - commsLossTimeoutMicros) :
      Verdicts events (as ++ vs.map (flag now))

/-- What an anomaly row says happened did happen. -/
inductive Justified (events : List TelemetryEvent) : Anomaly → Prop
  | alone {event : TelemetryEvent} (committed : event ∈ events) {firing : Firing}
      (fired : firing ∈ statelessAnomalies event) : Justified events (event.anomaly firing)
  | compared {prior event : TelemetryEvent} (committed : [prior, event].Sublist events)
      (sameVehicle : prior.vehicleId = event.vehicleId) {firing : Firing}
      (fired : firing ∈ statefulAnomalies event prior.currentState
        (event.recordedAt.instant - prior.recordedAt.instant)) :
      Justified events (event.anomaly firing)
  | silent {last : TelemetryEvent} (committed : last ∈ events) {now : Int}
      (older : last.recordedAt.instant < now - commsLossTimeoutMicros) :
      Justified events (flag now last.vehicleId)

theorem lastEvent_mem {events : List TelemetryEvent} {v : String} {event : TelemetryEvent}
    (last : lastEvent events v = some event) : event ∈ events ∧ event.vehicleId = v := by
  refine ⟨?_, ?_⟩
  · exact List.mem_reverse.mp (List.mem_of_find?_eq_some last)
  · simpa using List.find?_some last

theorem reading_some {events : List TelemetryEvent} {v : String} {row : CurrentState}
    (found : reading events v = some row) :
    ∃ event ∈ events, event.vehicleId = v ∧ row = event.currentState := by
  obtain ⟨event, last, rfl⟩ := Option.map_eq_some_iff.mp found
  obtain ⟨member, same⟩ := lastEvent_mem last
  exact ⟨event, member, same, rfl⟩

theorem Justified.mono {events later : List TelemetryEvent} {a : Anomaly}
    (justified : Justified events a) (more : events <+: later) : Justified later a := by
  cases justified with
  | alone committed fired => exact .alone (more.subset committed) fired
  | compared committed sameVehicle fired =>
    exact .compared (committed.trans more.sublist) sameVehicle fired
  | silent committed older => exact .silent (more.subset committed) older

/-- A rule that fires for an event speaks of the event alone, or of it and the one before. -/
theorem justified_detected {events earlier : List TelemetryEvent} (seen : earlier <+: events)
    {event : TelemetryEvent} {fired : List Firing}
    (detected : detectAnomalies event (reading earlier event.vehicleId) = .ok fired)
    {firing : Firing} (member : firing ∈ fired) :
    Justified (events ++ [event]) (event.anomaly firing) := by
  have committed : event ∈ events ++ [event] := by simp
  -- without a prior reading only the rules on one reading can fire
  cases prior : reading earlier event.vehicleId with
  | none =>
    rw [prior] at detected
    cases detected
    exact .alone committed member
  | some row =>
    obtain ⟨last, known, same, rfl⟩ := reading_some prior
    rw [prior] at detected
    rw [detectAnomalies_some detected] at member
    rcases List.mem_append.mp member with alone | stateful
    · exact .alone committed alone
    · refine .compared ?_ same stateful
      have before : [last].Sublist events :=
        List.singleton_sublist.mpr (seen.subset known)
      exact before.append (List.Sublist.refl [event])

theorem Verdicts.justified {events : List TelemetryEvent} {as : List Anomaly}
    (verdicts : Verdicts events as) : ∀ a ∈ as, Justified events a := by
  induction verdicts with
  | nil =>
    intro a listed
    cases listed
  | judged rest event seen detected ih =>
    intro a listed
    -- a justified anomaly stays so when more is committed
    rcases List.mem_append.mp listed with old | new
    · exact (ih a old).mono (List.prefix_append _ _)
    · obtain ⟨firing, member, rfl⟩ := List.mem_map.mp new
      exact justified_detected seen detected member
  | swept rest now seen once silent ih =>
    intro a listed
    rcases List.mem_append.mp listed with old | new
    · exact ih a old
    · obtain ⟨v, member, rfl⟩ := List.mem_map.mp new
      obtain ⟨row, found, older⟩ := silent v member
      obtain ⟨last, known, rfl, rfl⟩ := reading_some found
      exact .silent (seen.subset known) older

section Runs

/-- The statements that read the readings without a lock. -/
def looks : Stmt → Bool
  | .selectPrior _ | .insertCommsLoss _ _ _ => true
  | _ => false

theorem looks_reads {q : Stmt} (look : looks q = true) : q.reads = true := by
  cases q <;> first | rfl | cases look

/-- Every call looks at the readings with its first statement or not at all. -/
theorem transaction_looksFirst {call : Call} {q : Stmt} {next : q.Ret → Transaction Reply}
    (body : transaction call = .exec q next) (r : q.Ret) :
    (next r).All fun q => looks q = false := by
  cases call with
  | postTelemetry event =>
    rw [transaction, persistTelemetry_eq, Txn.exec_bind] at body
    cases body
    refine Txn.All.bind ?_ fun _ => .ret _
    split
    · exact .raise _
    · exact writeReading_all event (fun _ => rfl) (fun _ _ => rfl) (fun _ => rfl) (fun _ => rfl) _
  -- the status calls read no reading, first or later
  | postVehicleStatus vehicleId update =>
    have blind : (transaction (.postVehicleStatus vehicleId update)).All fun q =>
        looks q = false := by
      refine (transaction_reads (.postVehicleStatus vehicleId update)).mono fun q other => ?_
      by_contra look
      rw [looks_reads (by simpa using look)] at other
      cases other
    rw [body] at blind
    cases blind with
    | exec _ later => exact later r
  | sweep now =>
    cases body
    exact .ret _

/-- What an open call remembers: before its first statement nothing, after it what the log
had committed when the statement looked. -/
structure Remembers (log : List Event) (o : Session) : Prop where
  once : (o.pending = [] ∧ o.rest = transaction o.call) ∨ o.rest.All fun q => looks q = false
  prior : ∀ v r, ⟨.selectPrior v, r⟩ ∈ o.answered →
    ∃ earlier, earlier <+: committedEvents log ∧ r = reading earlier v
  sweep : ∀ now, o.call = .sweep now → o.rest = transaction o.call ∨
    ∃ reply earlier vs, o.rest = .ret reply ∧ earlier <+: committedEvents log ∧
      List.Nodup vs ∧ o.pending = (vs.map (flag now)).map .appendAnomaly ∧
      ∀ v ∈ vs, ∃ row, reading earlier v = some row ∧
        row.recordedAt < now - commsLossTimeoutMicros

theorem committedEvents_grow (log : List Event) (e : Event) :
    committedEvents log <+: committedEvents (log ++ [e]) := by
  unfold committedEvents
  rw [List.filterMap_append]
  exact List.prefix_append _ _

theorem told_prior {db : Db} {v : String} {r : Option CurrentState} {ws : List Write}
    (done : postgres.exec (.selectPrior v) db = .ok (r, ws)) :
    r = db.vehicleCurrentState.get? v :=
  (Stmt.execute_selectPrior (Stmt.exec_ok done).2).1

theorem sweep_first {now : Int} {q : Stmt} {next : q.Ret → Transaction Reply}
    (body : transaction (.sweep now) = .exec q next) {db : Db} {r : q.Ret} {ws : List Write}
    (done : postgres.exec q db = .ok (r, ws)) :
    looks q = true ∧ (∃ reply, next r = .ret reply) ∧
      ws = (flags now db).map .appendAnomaly := by
  cases body
  rw [exec_insertCommsLoss] at done
  cases done
  exact ⟨rfl, ⟨_, rfl⟩, rfl⟩

namespace Remembers

theorem fresh (log : List Event) (call : Call) : Remembers log (.fresh transaction call) where
  once := .inl ⟨rfl, rfl⟩
  prior _ _ answered := (List.not_mem_nil answered).elim
  sweep _ _ := .inl rfl

theorem later {log : List Event} {o : Session} (remembers : Remembers log o) (e : Event) :
    Remembers (log ++ [e]) o where
  once := remembers.once
  prior v r answered := by
    obtain ⟨earlier, seen, told⟩ := remembers.prior v r answered
    exact ⟨earlier, seen.trans (committedEvents_grow log e), told⟩
  sweep now call := by
    refine (remembers.sweep now call).imp_right ?_
    rintro ⟨reply, earlier, vs, ended, seen, rest⟩
    exact ⟨reply, earlier, vs, ended, seen.trans (committedEvents_grow log e), rest⟩

theorem own {log : List Event} {db : Db} (recorded : Recorded (committedEvents log) db)
    {o : Session} (remembers : Remembers log o) {q : Stmt} {next : q.Ret → Transaction Reply}
    (point : o.rest = .exec q next) {r : q.Ret} {ws : List Write} (ks : List Key)
    (done : postgres.exec q (postgres.view o db) = .ok (r, ws)) :
    Remembers log (o.advance q r next ws ks) := by
  have blind : (next r).All fun q => looks q = false := by
    rcases remembers.once with ⟨_, whole⟩ | rest
    · exact transaction_looksFirst (whole.symm.trans point) r
    · rw [point] at rest
      cases rest with
      | exec _ later => exact later r
  -- a statement that looks is the first one, so it meets the committed state itself
  have first : looks q = true → o.pending = [] := by
    intro look
    rcases remembers.once with ⟨silent, _⟩ | rest
    · exact silent
    · rw [point] at rest
      cases rest with
      | exec here _ =>
        rw [look] at here
        cases here
  refine ⟨.inr blind, ?_, ?_⟩
  · intro v told answered
    rcases List.mem_append.mp answered with old | new
    · exact remembers.prior v told old
    · have same := List.mem_singleton.mp new
      cases same
      rw [Engine.view, first rfl, Engine.writeAll_nil] at done
      rw [told_prior done]
      exact ⟨committedEvents log, List.prefix_refl _, recorded.current v⟩
  · intro now call
    right
    have called : o.call = .sweep now := call
    rcases remembers.sweep now called with whole | ⟨reply, _, _, ended, _⟩
    · have body : transaction (.sweep now) = .exec q next := by rw [← called, ← whole, point]
      obtain ⟨look, ⟨reply, ended⟩, sent⟩ := sweep_first body done
      rw [Engine.view, first look, Engine.writeAll_nil] at sent
      refine ⟨reply, committedEvents log, silentVehicles (now - commsLossTimeoutMicros) db,
        ended, List.prefix_refl _, silentVehicles_nodup _ db, ?_, ?_⟩
      · rw [Session.advance, first look, List.nil_append, sent, flags]
      · intro v silent
        obtain ⟨row, found, older, _⟩ := mem_silentVehicles.mp silent
        exact ⟨row, (recorded.current v).symm.trans found, older⟩
    · rw [ended] at point
      cases point

end Remembers

/-- The tables and the anomalies are what the events committed so far account for. -/
structure Accounted (log : List Event) (db : Db) : Prop where
  recorded : Recorded (committedEvents log) db
  verdicts : Verdicts (committedEvents log) db.anomalies

namespace Accounted

theorem effect {log : List Event} {call : Call} {answered : List (Sigma Stmt.Ret)} {reply : Reply}
    {before after : Db} (accounted : Accounted log before)
    (effect : Effect (Stmt.lockPolicy.Allowed postgres) call answered reply before after)
    (prior : ∀ v r, ⟨.selectPrior v, r⟩ ∈ answered →
      ∃ earlier, earlier <+: committedEvents log ∧ r = reading earlier v)
    (sweep : ∀ now, call = .sweep now →
      ∃ earlier vs, earlier <+: committedEvents log ∧ List.Nodup vs ∧
        after.anomalies = before.anomalies ++ vs.map (flag now) ∧
        ∀ v ∈ vs, ∃ row, reading earlier v = some row ∧
          row.recordedAt < now - commsLossTimeoutMicros) :
    Accounted (log ++ [.returned call answered reply before after]) after where
  recorded := by
    -- only an ingest touches the readings
    rcases readings_effect effect with ⟨event, anomalies, rfl, rfl⟩ | ⟨other, raw, current⟩
    · rw [committedEvents_returned]
      exact accounted.recorded.ingest event anomalies
    · rw [committedEvents_other _ _ (by simp [other])]
      exact ⟨raw.trans accounted.recorded.raw, fun v => by
        rw [current, accounted.recorded.current v]⟩
  verdicts := by
    cases effect with
    | ingested read detected =>
      obtain ⟨earlier, seen, rfl⟩ := prior _ _ List.mem_cons_self
      rw [committedEvents_returned]
      exact .judged accounted.verdicts _ seen detected
    -- a sweep judges by the readings that its own snapshot had
    | @swept now _ _ _ rows =>
      obtain ⟨earlier, vs, seen, once, appended, silent⟩ := sweep now rfl
      rw [committedEvents_other _ _ (by simp), appended]
      exact .swept accounted.verdicts now seen once silent
    | alreadyInFault | enteredFault | unmatched | updated =>
      rw [committedEvents_other _ _ (by simp)]
      exact accounted.verdicts

theorem same {log : List Event} {db db' : Db} (accounted : Accounted log db) (e : Event)
    (other : ∀ event answered reply before after,
      e ≠ .returned (.postTelemetry event) answered reply before after)
    (raw : db'.rawEvents = db.rawEvents)
    (current : db'.vehicleCurrentState = db.vehicleCurrentState)
    (anomalies : db'.anomalies = db.anomalies) : Accounted (log ++ [e]) db' := by
  have events := committedEvents_other log e other
  constructor
  · rw [events]
    exact ⟨raw.trans accounted.recorded.raw, fun v => by
      rw [current, accounted.recorded.current v]⟩
  · rw [events, anomalies]
    exact accounted.verdicts

end Accounted

theorem histories : Histories postgres transaction assignsMission (Explained assignsMission)
    Accounted Remembers where
  fresh := Remembers.fresh
  own log db o q next r ws accounted remembers point done :=
    remembers.own accounted.recorded point _ done
  later log e o remembers := remembers.later e
  committed log db o reply accounted remembers point explained := by
    refine accounted.effect explained remembers.prior ?_
    intro now called
    -- a sweep that commits has looked, so it knows which readings it saw
    rcases remembers.sweep now called with whole | ⟨_, earlier, vs, _, seen, once, sent, silent⟩
    · rw [whole, called] at point
      cases point
    · refine ⟨earlier, vs, seen, once, ?_, silent⟩
      rw [Engine.view, sent, writeAll_appendAnomaly]
  raised log db c e accounted := accounted.same _ (by simp) rfl rfl rfl
  outside log held db db' accounted allowed := by
    obtain ⟨id, m, _, _, _, rfl, _⟩ := allowed
    exact accounted.same _ (by simp) rfl rfl rfl

/-- In every interleaving, from empty reading tables, the anomalies are the verdicts on the
committed events; each of them is justified by what was committed. -/
theorem anomalies_judged (db : Db) (noEvents : db.rawEvents = [])
    (noReadings : db.vehicleCurrentState = .empty) (noAnomalies : db.anomalies = []) (s : State)
    (reached : ReachableWith assignsMission db s) :
    Verdicts (committedEvents s.log) s.db.anomalies ∧
      ∀ a ∈ s.db.anomalies, Justified (committedEvents s.log) a := by
  have start : Accounted [] db := by
    refine ⟨⟨noEvents, fun v => by simp [noReadings, lastEvent, committedEvents]⟩, ?_⟩
    rw [noAnomalies]
    exact .nil
  obtain ⟨accounted, _⟩ := histories.reachable
    (fun s reached => ReachableWith.explained agree_assignsMission reached) start reached
  exact ⟨accounted.verdicts, accounted.verdicts.justified⟩

/-- The rise is judged against the first reading, and the silence is that of the second one. -/
theorem anomalies_judged_rise :
    ∃ s, ReachableWith assignsMission Db.seeded s ∧
      s.db.anomalies.map Anomaly.anomalyType = [.batteryRising, .commsLoss] ∧
      ∀ a ∈ s.db.anomalies, Justified (committedEvents s.log) a := by
  obtain ⟨s, reached, types⟩ := exists_reachable assignsMission [0, 1] Db.seeded
    [.begin 0 (.postTelemetry battery40), .advance 0, .advance 0, .advance 0, .advance 0,
      .begin 1 (.postTelemetry battery45), .advance 1, .begin 0 (.sweep 9000000),
      .advance 1, .advance 1, .advance 1, .advance 1, .advance 0, .advance 0]
    (fun s => decide (s.db.anomalies.map Anomaly.anomalyType = [.batteryRising, .commsLoss]))
    (by decide +kernel)
  exact ⟨s, reached, of_decide_eq_true types,
    (anomalies_judged Db.seeded rfl rfl rfl s reached).2⟩

end Runs

end FleetTelemetry.Ingest
