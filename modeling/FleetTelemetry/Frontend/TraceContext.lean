import FleetTelemetry.Frontend.Live

/-!
# The trace across the channel

The consumer writes the context of its publish span into the envelope, and the frontend opens
its subscribe span under what it reads there. The propagator is a library's: what it writes
and reads is a parameter, and it may raise.
-/

namespace FleetTelemetry.Frontend

open Foundations Foundations.Wire
open Cdc (Message)

structure Propagator (Context : Type) where
  empty : Context
  inject : Context → Except PyError (OrdMap String String)
  extract : Dict → Except PyError Context

namespace Propagator

variable {Context : Type} (p : Propagator Context)

/-- The carrier `inject_trace_context` attaches under the active context; an empty one is none. -/
def carrier (active : Context) : OrdMap String String :=
  match p.inject active with
  | .ok carrier => carrier
  | .error _ => .empty

def extractTraceContext (envelope : Dict) : Context :=
  match envelope.lookup traceContextKey with
  | some (.object carrier) =>
    match p.extract carrier with
    | .ok context => context
    | .error _ => p.empty
  | _ => p.empty

/-- The parent of the subscribe span. Under none the span is a new root. -/
def parent (floats : Floats) (limits : Limits) (data : List Char) : Option Context :=
  match readEnvelope floats limits data with
  | some (.object envelope) => some (p.extractTraceContext envelope)
  | _ => none

/-- What a carrier is once `json.loads` has read it. -/
def fields (carrier : OrdMap String String) : Dict :=
  carrier.entries.map fun entry => (Json.ofString entry.1, .string (Json.ofString entry.2))

/-- A carrier that was written is read as the remote side of the span. -/
def Carries (remote : Context → Context) : Prop :=
  ∀ active carrier, p.inject active = .ok carrier → carrier.entries ≠ [] →
    p.extract (fields carrier) = .ok (remote active)

/-- What the subscriber's span hangs under: the publish span, unless nothing was written. -/
def joined (remote : Context → Context) (active : Context) : Context :=
  if (p.carrier active).entries = [] then p.empty else remote active

variable {p} {remote : Context → Context}

theorem lookup_absent {envelope : Dict} {key : List UInt16}
    (fresh : key ∉ envelope.map Prod.fst) : envelope.lookup key = none := by
  rw [List.lookup_eq_none_iff]
  intro member present
  rw [bne_iff_ne]
  rintro rfl
  exact fresh (List.mem_map_of_mem present)

theorem lookup_fresh {envelope : Dict} {v : Json PyNumber} {key : List UInt16}
    (fresh : key ∉ envelope.map Prod.fst) : (envelope ++ [(key, v)]).lookup key = some v := by
  rw [List.lookup_append, lookup_absent fresh]
  simp

theorem carrier_nonempty {active : Context} (attached : (p.carrier active).entries ≠ []) :
    p.inject active = .ok (p.carrier active) := by
  unfold carrier at attached ⊢
  cases injected : p.inject active with
  | ok written => rfl
  | error e =>
    rw [injected] at attached
    exact (attached rfl).elim

/-- Extracting undoes injecting. -/
theorem extract_inject (carries : p.Carries remote) (active : Context) (message : Message) :
    p.extractTraceContext (injectTraceContext (p.carrier active) (envelope message)) =
      p.joined remote active := by
  unfold extractTraceContext joined
  by_cases attached : (p.carrier active).entries = []
  · rw [injectTraceContext, if_pos attached, lookup_absent (traceContextKey_fresh message),
      if_pos attached]
  · rw [injectTraceContext_fresh attached, lookup_fresh (traceContextKey_fresh message),
      if_neg attached]
    have read := carries active _ (carrier_nonempty attached) attached
    rw [carrierValue]
    dsimp only [fields] at read ⊢
    rw [read]

end Propagator

section Channel

variable {Context : Type}

/-- A change with the context of its publish span. -/
structure Change (Context : Type) where
  row : Row
  active : Context

def Change.text (floats : Floats) (p : Propagator Context) (change : Change Context) :
    List Char := publishedText floats (p.carrier change.active) change.row.message

/-- The traces are joined across the channel: each subscribe span hangs under the publish span
of its message, or is a root if that one wrote no carrier, and what is broadcast is the same
whatever was written. -/
theorem traces_joined (floats : Floats) (limits : Limits) (p : Propagator Context)
    (remote : Context → Context) (carries : p.Carries remote) (changes : List (Change Context))
    (exact : ∀ change ∈ changes, change.row.Exact floats)
    (roomy : ∀ change ∈ changes, change.row.Roomy floats limits) :
    changes.map (fun change => p.parent floats limits (change.text floats p)) =
        changes.map (fun change => some (p.joined remote change.active)) ∧
      redisSubscriber floats limits
          (changes.map fun change => utf8 (String.ofList (change.text floats p))) =
        (changes.map fun change => change.row.frame floats, none) := by
  constructor
  · apply List.map_congr_left
    intro change member
    -- the subscriber loads what the consumer dumped, carrier and all
    have writable := writable_message (exact change member)
    have loaded := loads_dumps (wellFormed_injectTraceContext (p.carrier change.active) writable)
    have room := (roomy change member).loads (p.carrier change.active)
    have read : readEnvelope floats limits (change.text floats p) =
        some (.object (injectTraceContext (p.carrier change.active)
          (envelope change.row.message))) := by
      rw [readEnvelope, Change.text, room]
      exact loaded
    rw [Propagator.parent, read]
    exact congrArg some (Propagator.extract_inject carries ..)
  -- the carrier of each change is one of those a message may be published with
  · have published : List.Forall₂ (Published floats)
        ((changes.map Change.row).map Row.message)
        (changes.map fun change => utf8 (String.ofList (change.text floats p))) := by
      rw [List.map_map, List.forall₂_map_left_iff, List.forall₂_map_right_iff,
        List.forall₂_same]
      exact fun change _ => ⟨p.carrier change.active, rfl⟩
    rw [redisSubscriber_published published, List.map_map]
    · rfl
    · intro row member
      obtain ⟨change, listed, rfl⟩ := List.mem_map.mp member
      exact exact change listed
    · intro row member
      obtain ⟨change, listed, rfl⟩ := List.mem_map.mp member
      exact roomy change listed

/-- A context without a span, one with a recording span, and the one read from its carrier. -/
inductive SpanContext where
  | none
  | recording
  | remote
  deriving DecidableEq, Repr

def traceparent : String := "00-4bf92f3577b34da6a3ce929d0e0e4736-00f067aa0ba902b7-01"

/-- The propagator, for one span. -/
def spanPropagator : Propagator SpanContext where
  empty := .none
  inject
    | .none => .ok .empty
    | .recording | .remote => .ok (OrdMap.empty.set "traceparent" traceparent)
  extract carrier :=
    match carrier.lookup (Json.ofString "traceparent") with
    | some (.string text) => .ok (if text = Json.ofString traceparent then .remote else .none)
    | _ => .ok .none

theorem spanPropagator_carries : spanPropagator.Carries fun _ => .remote := by
  intro active carrier injected written
  cases active with
  | none =>
    cases injected
    exact (written rfl).elim
  | recording | remote =>
    cases injected
    have entries : (OrdMap.empty.set "traceparent" traceparent).entries =
        [("traceparent", traceparent)] := rfl
    simp [spanPropagator, Propagator.fields, entries]

/-- A recorded change and one without a span. -/
theorem traces_joined_recorded :
    let changes : List (Change SpanContext) :=
      [⟨.zoneCounts "aisle_a" 3, .recording⟩, ⟨.zoneCounts "aisle_a" 4, .none⟩]
    changes.map (fun change =>
        spanPropagator.parent chargedFloats unlimited (change.text chargedFloats spanPropagator)) =
      [some .remote, some .none] := by
  intro changes
  have joined := traces_joined chargedFloats unlimited spanPropagator _ spanPropagator_carries
    changes ?_ fun change _ => roomy_unlimited change.row
  · exact joined.1
  · intro change member
    simp only [changes, List.mem_cons, List.not_mem_nil, or_false] at member
    rcases member with rfl | rfl <;> trivial

end Channel

end FleetTelemetry.Frontend
