import FleetTelemetry.Frontend.Fidelity

/-!
# The subscriber loop

`_redis_subscriber` over the byte strings published on the channel. An exception that
`_fan_out` does not catch ends the loop, and with it the delivery to every client: the
decoding of the bytes before it, and the serialization after the carrier is taken out.
-/

namespace FleetTelemetry.Frontend

open Foundations Foundations.Wire

/-- The exceptions that leave the loop. -/
inductive Escaped where
  | unicodeDecodeError
  | recursionError
  deriving DecidableEq, Repr

/-- The texts `json.loads` refuses, and the values `json.dumps` does, for a limit of the
interpreter. -/
structure Limits where
  loads : List Char → Bool
  dumps : Dict → Bool

section Loop

variable (floats : Floats) (limits : Limits)

/-- The envelope, unless `json.loads` raised. -/
def readEnvelope (data : List Char) : Option (Json PyNumber) :=
  if limits.loads data then none else loads floats data

/-- `_fan_out` up to the broadcast. -/
def forward (data : List Char) : Except Escaped (List Char) :=
  match readEnvelope floats limits data with
  | some (.object envelope) =>
    if traceContextKey ∈ envelope.map Prod.fst then
      if limits.dumps (stripTraceContext envelope) then .error .recursionError
      else .ok (dumps floats (.object (stripTraceContext envelope)))
    else .ok data
  -- no JSON, or no object: the raw text
  | _ => .ok data

/-- What the loop does with one message: the text it broadcasts. -/
def receive (data : List UInt8) : Except Escaped (List Char) :=
  match decodeUtf8 data with
  | none => .error .unicodeDecodeError
  | some text => forward floats limits text.toList

/-- The texts broadcast for the published messages, and the exception that ended the loop. -/
def redisSubscriber : List (List UInt8) → List (List Char) × Option Escaped
  | [] => ([], none)
  | data :: messages =>
    match receive floats limits data with
    | .error e => ([], some e)
    | .ok text => (text :: (redisSubscriber messages).1, (redisSubscriber messages).2)

/-- The text is a JSON object with a trace carrier at its top level. -/
def HasCarrier (text : List Char) : Prop :=
  ∃ envelope, loads floats text = some (.object envelope) ∧
    traceContextKey ∈ envelope.map Prod.fst

/-- The broadcast of a message: its own text, but for a carrier. -/
def Broadcasts (data : List UInt8) (sent : List Char) : Prop :=
  receive floats limits data = .ok sent ∧
    ∀ text, decodeUtf8 data = some text → ¬HasCarrier floats text.toList → sent = text.toList

/-- Every message is broadcast once, in order, and the loop is still running. -/
def Delivered (messages : List (List UInt8)) : Prop :=
  List.Forall₂ (Broadcasts floats limits) messages (redisSubscriber floats limits messages).1 ∧
    (redisSubscriber floats limits messages).2 = none

/-- The bytes are UTF-8, and `json.dumps` does not refuse an envelope without its carrier. -/
def Readable (data : List UInt8) : Prop :=
  ∃ text, decodeUtf8 data = some text ∧
    ∀ envelope, readEnvelope floats limits text.toList = some (.object envelope) →
      traceContextKey ∈ envelope.map Prod.fst →
      limits.dumps (stripTraceContext envelope) = false

theorem forward_unchanged {text sent : List Char} (plain : ¬HasCarrier floats text)
    (forwarded : forward floats limits text = .ok sent) : sent = text := by
  unfold forward at forwarded
  split at forwarded
  next envelope read =>
    split at forwarded
    next carried =>
      -- an envelope read within the limits is the one `json.loads` reads
      have loaded : loads floats text = some (.object envelope) := by
        unfold readEnvelope at read
        split at read
        · cases read
        · exact read
      exact (plain ⟨envelope, loaded, carried⟩).elim
    · exact (Except.ok.inj forwarded).symm
  · exact (Except.ok.inj forwarded).symm

theorem receive_broadcasts {data : List UInt8} {sent : List Char}
    (received : receive floats limits data = .ok sent) : Broadcasts floats limits data sent := by
  refine ⟨received, ?_⟩
  intro text decoded plain
  rw [receive, decoded] at received
  exact forward_unchanged floats limits plain received

theorem forward_ok_iff (text : List Char) :
    (∃ sent, forward floats limits text = .ok sent) ↔
      ∀ envelope, readEnvelope floats limits text = some (.object envelope) →
        traceContextKey ∈ envelope.map Prod.fst →
        limits.dumps (stripTraceContext envelope) = false := by
  unfold forward
  split
  next envelope read =>
    simp only [read, Option.some.injEq, Json.object.injEq, forall_eq']
    -- only a message with a carrier is written again, which may raise
    by_cases carried : traceContextKey ∈ envelope.map Prod.fst
    · rw [if_pos carried]
      cases limits.dumps (stripTraceContext envelope) with
      | true =>
        constructor
        · rintro ⟨_, refused⟩
          cases refused
        · intro accepted
          cases accepted carried
      | false => exact ⟨fun _ _ => rfl, fun _ => ⟨_, rfl⟩⟩
    · rw [if_neg carried]
      exact ⟨fun _ present => (carried present).elim, fun _ => ⟨text, rfl⟩⟩
  -- what is no object is passed on as it is
  next other =>
    constructor
    · intro _ envelope read
      exact (other envelope read).elim
    · intro _
      exact ⟨text, rfl⟩

theorem receive_ok_iff (data : List UInt8) :
    (∃ sent, receive floats limits data = .ok sent) ↔ Readable floats limits data := by
  unfold receive Readable
  cases decodeUtf8 data with
  | none => simp
  | some text => simp [forward_ok_iff]

/-- The loop delivers every message exactly if all of them are readable. -/
theorem delivered_iff (messages : List (List UInt8)) :
    Delivered floats limits messages ↔ ∀ data ∈ messages, Readable floats limits data := by
  induction messages with
  | nil => simp [Delivered, redisSubscriber]
  | cons data messages ih =>
    rw [List.forall_mem_cons, ← ih, ← receive_ok_iff]
    unfold Delivered
    cases received : receive floats limits data with
    | error e => simp [redisSubscriber, received]
    | ok sent =>
      have broadcast := receive_broadcasts floats limits received
      simp [redisSubscriber, received, broadcast]

end Loop

/-- A byte that starts no character ends the loop before the event behind it. -/
theorem invalidByte_escapes :
    redisSubscriber chargedFloats ⟨fun _ => false, fun _ => false⟩ [[255], utf8 "not-json"] =
        ([], some .unicodeDecodeError) ∧
      ¬Delivered chargedFloats ⟨fun _ => false, fun _ => false⟩ [[255], utf8 "not-json"] := by
  have ended : redisSubscriber chargedFloats ⟨fun _ => false, fun _ => false⟩
      [[255], utf8 "not-json"] = ([], some .unicodeDecodeError) := by
    have invalid : decodeUtf8 [255] = none := by decide +kernel
    simp [redisSubscriber, receive, invalid]
  refine ⟨ended, ?_⟩
  rintro ⟨_, running⟩
  rw [ended] at running
  cases running

end FleetTelemetry.Frontend
