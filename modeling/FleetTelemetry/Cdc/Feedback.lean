import FleetTelemetry.Cdc.Confirming

/-!
# Feedback under the clock

The loop of `_pump` with the readings of `time.time()`: an update is skipped while the last
one is less than a second old, unless it is forced by a keepalive that asks for a reply or
by the end of the run. The clock is the wall clock, and may jump either way.
-/

namespace FleetTelemetry.Cdc

open Foundations Foundations.Wire

/-- An occasion to send an update: what the clock reads, in seconds and as the microseconds
`int((now - _PG_EPOCH_DELTA) * 1_000_000)` that its floats come to, and what the connection
does with the bytes. -/
structure Occasion where
  now : ℚ
  micros : Int
  put : List UInt8 → Except PyError Unit
  flush : Except PyError Unit

/-- An update handed to the connection. -/
structure StatusUpdate where
  force : Bool
  now : ℚ
  micros : Int
  lsn : Int
  buf : List UInt8

/-- `b"r" + struct.pack("!qqqqB", lsn, lsn, lsn, micros, 0)`. -/
def packStatusUpdate (lsn micros : Int) : Except PyError (List UInt8) :=
  if InRange 8 lsn ∧ InRange 8 micros then
    .ok ([114] ++ (encodeInt 8 lsn ++ (encodeInt 8 lsn ++ (encodeInt 8 lsn ++
      (encodeInt 8 micros ++ [0])))))
  else .error .structError

/-- The written, flushed and applied positions and the clock of an update, as the server
reads them. -/
def readStatusUpdate (buf : List UInt8) : Except PyError (Int × Int × Int × Int) := do
  let written ← Bytes.unpackFrom 8 buf 1
  let flushed ← Bytes.unpackFrom 8 buf 9
  let applied ← Bytes.unpackFrom 8 buf 17
  let clock ← Bytes.unpackFrom 8 buf 25
  return (written, flushed, applied, clock)

structure TimedPump where
  consumer : Consumer
  lastFeedback : ℚ
  sent : List StatusUpdate

/-- One turn of the loop. -/
inductive Turn where
  -- `get_copy_data` returned -2, or it, `select` or `consume_input` raised
  | raises (e : PyError)
  | idle (o : Occasion)
  | message (publish : Message → Except PyError Unit) (msg : List UInt8) (asked o : Occasion)

namespace TimedPump

def started (now : ℚ) : TimedPump := ⟨.new, now, []⟩

def sendFeedback (s : TimedPump) (force : Bool) (o : Occasion) :
    TimedPump × Except PyError Unit :=
  if force = false ∧ o.now - s.lastFeedback < 1 then (s, .ok ())
  else match packStatusUpdate s.consumer.lastLsn o.micros with
    | .error e => (s, .error e)
    | .ok buf => match o.put buf with
      | .error e => (s, .error e)
      | .ok () =>
        let s := { s with sent := s.sent ++ [⟨force, o.now, o.micros, s.consumer.lastLsn, buf⟩] }
        match o.flush with
        | .error e => (s, .error e)
        | .ok () => ({ s with lastFeedback := o.now }, .ok ())

variable (num : Numerals)

def turn (s : TimedPump) : Turn → TimedPump × Except PyError Unit
  | .raises e => (s, .error e)
  | .idle o => s.sendFeedback false o
  | .message publish msg asked o =>
    match onCopyMessage num publish s.consumer msg with
    | (c, .error e) => ({ s with consumer := c }, .error e)
    | (c, .ok false) => sendFeedback { s with consumer := c } false o
    | (c, .ok true) =>
      match sendFeedback { s with consumer := c } true asked with
      | (s, .error e) => (s, .error e)
      | (s, .ok ()) => s.sendFeedback false o

/-- `_pump`, for the turns until `stop` is set or the stream ends. -/
def pump (s : TimedPump) : List Turn → TimedPump × Except PyError Unit
  | [] => (s, .ok ())
  | t :: ts =>
    match s.turn num t with
    | (s, .error e) => (s, .error e)
    | (s, .ok ()) => pump s ts

/-- `run` from the start of the stream on, with the update of its `finally`. -/
def run (now : ℚ) (turns : List Turn) (closing : Occasion) :
    TimedPump × Except PyError Unit :=
  match pump num (started now) turns with
  | (s, outcome) => ((s.sendFeedback true closing).1, outcome)

end TimedPump

/-- The time of the last of the updates, or the start. -/
def latest : ℚ → List StatusUpdate → ℚ
  | start, [] => start
  | _, u :: us => latest u.now us

/-- An update that nothing forces is a second or more after the one before it. -/
def Spaced : ℚ → List StatusUpdate → Prop
  | _, [] => True
  | last, u :: us => (u.force = false → last + 1 ≤ u.now) ∧ Spaced u.now us

/-- What the server can rely on in the updates of a run: each can be read, none goes back
behind an earlier one or ahead of the position, and they are spaced. -/
structure TimedPump.Paced (start : ℚ) (s : TimedPump) : Prop where
  position : InRange 8 s.consumer.lastLsn
  readable : ∀ u ∈ s.sent, readStatusUpdate u.buf = .ok (u.lsn, u.lsn, u.lsn, u.micros)
  forward : (s.sent.map StatusUpdate.lsn).Pairwise (· ≤ ·)
  received : ∀ u ∈ s.sent, u.lsn ≤ s.consumer.lastLsn
  spaced : Spaced start s.sent

/-- The last update sent is the one the pump goes by. -/
def TimedPump.Current (start : ℚ) (s : TimedPump) : Prop :=
  s.lastFeedback = latest start s.sent

namespace Turn

/-- The message is a keepalive with its reply flag set. -/
def asks : Turn → Bool
  | message _ msg _ _ => decide (msg.take 1 = [107] ∧ msg[17]? ≠ some 0)
  | _ => false

def lsn : Turn → Option Int
  | message _ msg _ _ => headerLsn msg
  | _ => none

/-- The clock as the turn ends. -/
def now : Turn → Option ℚ
  | raises _ => none
  | idle o => some o.now
  | message _ _ _ o => some o.now

end Turn

/-- The position at each keepalive that asks for a reply, that keepalive taken in. -/
def answers : Int → List Turn → List Int
  | _, [] => []
  | lsn, t :: ts =>
    let reached := t.lsn.elim lsn (max lsn)
    (if t.asks then [reached] else []) ++ answers reached ts

section Packing

theorem readStatusUpdate_packed {lsn micros : Int} {buf : List UInt8}
    (packed : packStatusUpdate lsn micros = .ok buf) :
    readStatusUpdate buf = .ok (lsn, lsn, lsn, micros) := by
  unfold packStatusUpdate at packed
  split at packed
  next fits =>
    obtain ⟨position, clock⟩ := fits
    cases packed
    -- the layout is the tag, the position three times, the clock and the reply flag
    let p : WireInt 8 := ⟨lsn, position⟩
    let m : WireInt 8 := ⟨micros, clock⟩
    have width : p.encode.length = 8 := length_encodeInt 8 lsn
    have written := Reader.unpackFrom_at [114] p
      (p.encode ++ (p.encode ++ (m.encode ++ [0]))) 1 rfl
    have flushed := Reader.unpackFrom_at ([114] ++ p.encode) p
      (p.encode ++ (m.encode ++ [0])) 9 (by simp [width])
    have applied := Reader.unpackFrom_at ([114] ++ (p.encode ++ p.encode)) p (m.encode ++ [0]) 17
      (by simp [width])
    have stamp := Reader.unpackFrom_at ([114] ++ (p.encode ++ (p.encode ++ p.encode))) m [0] 25
      (by simp [width])
    simp only [List.append_assoc] at written flushed applied stamp
    have buf : [114] ++ (encodeInt 8 lsn ++ (encodeInt 8 lsn ++ (encodeInt 8 lsn ++
        (encodeInt 8 micros ++ [0])))) =
        [114] ++ (p.encode ++ (p.encode ++ (p.encode ++ (m.encode ++ [0])))) := rfl
    rw [readStatusUpdate, buf, written, ok_bind, flushed, ok_bind, applied, ok_bind, stamp]
    rfl
  · cases packed

end Packing

section Updates

theorem latest_snoc (start : ℚ) (us : List StatusUpdate) (u : StatusUpdate) :
    latest start (us ++ [u]) = u.now := by
  induction us generalizing start with
  | nil => rfl
  | cons u' us ih => exact ih u'.now

theorem Spaced.snoc {start : ℚ} {us : List StatusUpdate} (spaced : Spaced start us)
    {u : StatusUpdate} (due : u.force = false → latest start us + 1 ≤ u.now) :
    Spaced start (us ++ [u]) := by
  induction us generalizing start with
  | nil => exact ⟨due, trivial⟩
  | cons u' us ih => exact ⟨spaced.1, ih spaced.2 due⟩

end Updates

namespace TimedPump

variable {start : ℚ}

/-- Everything `sendFeedback` can do to the pump: leave it as it is, or hand over one update
of its position. -/
theorem sendFeedback_cases (s : TimedPump) (force : Bool) (o : Occasion) :
    (s.sendFeedback force o).1 = s ∧
        ((s.sendFeedback force o).2 = .ok () → force = false ∧ o.now - s.lastFeedback < 1) ∨
      ∃ buf last, packStatusUpdate s.consumer.lastLsn o.micros = .ok buf ∧
        (force = false → 1 ≤ o.now - s.lastFeedback) ∧
        (s.sendFeedback force o).1 = ⟨s.consumer, last,
          s.sent ++ [⟨force, o.now, o.micros, s.consumer.lastLsn, buf⟩]⟩ ∧
        ((s.sendFeedback force o).2 = .ok () → last = o.now) := by
  unfold sendFeedback
  split
  -- less than a second since the last one, and no force: nothing is sent
  next skipped => exact .inl ⟨rfl, fun _ => skipped⟩
  next due =>
    have late : force = false → 1 ≤ o.now - s.lastFeedback :=
      fun free => not_lt.mp fun early => due ⟨free, early⟩
    cases packed : packStatusUpdate s.consumer.lastLsn o.micros with
    -- a position or clock that does not fit raises before anything is handed over
    | error e => exact .inl ⟨rfl, nofun⟩
    | ok buf =>
      cases put : o.put buf with
      | error e => exact .inl ⟨by simp [put], by simp [put]⟩
      | ok _ =>
        right
        cases flushed : o.flush with
        -- the time is stored after the flush, so a failing flush keeps the old one
        | error e => exact ⟨buf, s.lastFeedback, rfl, late, by simp [put], by simp [put]⟩
        | ok _ => exact ⟨buf, o.now, rfl, late, by simp [put], fun _ => rfl⟩

theorem sendFeedback_consumer (s : TimedPump) (force : Bool) (o : Occasion) :
    (s.sendFeedback force o).1.consumer = s.consumer := by
  obtain ⟨same, _⟩ | ⟨_, _, _, _, sent, _⟩ := s.sendFeedback_cases force o
  · rw [same]
  · rw [sent]

theorem inRange_zero : InRange 8 0 := by decide

theorem paced_started (now : ℚ) : Paced now (started now) :=
  ⟨inRange_zero, nofun, .nil, nofun, trivial⟩

theorem Paced.sendFeedback {s : TimedPump} (paced : Paced start s) (force : Bool) (o : Occasion)
    (current : force = false → Current start s) : Paced start (s.sendFeedback force o).1 := by
  obtain ⟨same, _⟩ | ⟨buf, last, packed, due, sent, _⟩ := s.sendFeedback_cases force o
  · rw [same]
    exact paced
  · rw [sent]
    refine ⟨paced.position, ?_, ?_, ?_, paced.spaced.snoc ?_⟩
    · intro u member
      rcases List.mem_append.mp member with old | new
      · exact paced.readable u old
      · obtain rfl := List.mem_singleton.mp new
        exact readStatusUpdate_packed packed
    -- positions only grow, so the new one is no less than any sent before
    · rw [List.map_append, List.pairwise_append]
      refine ⟨paced.forward, List.pairwise_singleton _ _, ?_⟩
      intro lsn earlier lsn' new
      obtain ⟨u, member, rfl⟩ := List.mem_map.mp earlier
      obtain rfl := List.mem_singleton.mp new
      exact paced.received u member
    · intro u member
      rcases List.mem_append.mp member with old | new
      · exact paced.received u old
      · obtain rfl := List.mem_singleton.mp new
        exact le_refl _
    -- an unforced update waits for the second since the last one, forced or not
    · intro free
      have due := due free
      rw [current free] at due
      show latest start s.sent + 1 ≤ o.now
      linarith

/-- After an update that goes through, or need not be sent, the last one is less than a second
old. -/
theorem Current.sendFeedback {s : TimedPump} {force : Bool} {o : Occasion}
    (current : Current start s) (done : (s.sendFeedback force o).2 = .ok ()) :
    Current start (s.sendFeedback force o).1 ∧
      o.now < (s.sendFeedback force o).1.lastFeedback + 1 := by
  obtain ⟨same, skipped⟩ | ⟨buf, last, _, _, sent, reset⟩ := s.sendFeedback_cases force o
  -- skipped: the last update is less than a second old
  · rw [same]
    refine ⟨current, ?_⟩
    have early := (skipped done).2
    linarith
  -- sent: it is the last one now, and as old as this turn
  · rw [sent]
    have reset := reset done
    refine ⟨?_, ?_⟩
    · show last = latest start _
      rw [latest_snoc, reset]
    · show o.now < last + 1
      linarith

/-- The positions confirmed because something asked for it. -/
def forced (s : TimedPump) : List Int := (s.sent.filter StatusUpdate.force).map StatusUpdate.lsn

theorem forced_sendFeedback {s : TimedPump} {force : Bool} {o : Occasion}
    (done : (s.sendFeedback force o).2 = .ok ()) :
    (s.sendFeedback force o).1.forced =
      s.forced ++ if force then [s.consumer.lastLsn] else [] := by
  obtain ⟨same, skipped⟩ | ⟨buf, last, _, _, sent, _⟩ := s.sendFeedback_cases force o
  · rw [same, (skipped done).1]
    simp
  · rw [sent]
    cases force <;> simp [forced]

end TimedPump

section Messages

variable {num : Numerals} {publish : Message → Except PyError Unit}

theorem onCopyMessage_asks {c c' : Consumer} {msg : List UInt8} {reply : Bool}
    (asked o : Occasion) (handled : onCopyMessage num publish c msg = (c', .ok reply)) :
    reply = (Turn.message publish msg asked o).asks := by
  unfold onCopyMessage at handled
  simp only [Turn.asks]
  split at handled
  -- a data message asks for no reply
  next data =>
    rw [data]
    split at handled
    · cases handled
    · dsimp only at handled
      split at handled
      · cases handled
      · cases handled
        rfl
  -- a keepalive asks by its last byte; any other message asks for nothing
  · split at handled
    next keepalive =>
      rw [keepalive]
      split at handled
      · cases handled
      · split at handled
        next flag =>
          cases handled
          simp [flag]
        · cases handled
    next other =>
      cases handled
      simp [other]

theorem headerLsn_inRange {msg : List UInt8} {lsn : Int} (header : headerLsn msg = some lsn) :
    InRange 8 lsn := by
  -- either kind of message has the position as a field of eight bytes
  have read : ∀ offset, (Bytes.unpackFrom 8 msg offset).toOption = some lsn → InRange 8 lsn := by
    intro offset found
    cases value : Bytes.unpackFrom 8 msg offset with
    | error e =>
      rw [value] at found
      cases found
    | ok v =>
      rw [value] at found
      cases found
      exact Reader.unpackFrom_inRange value
  unfold headerLsn at header
  split at header
  · exact read _ header
  · split at header
    · split at header
      · cases header
      · exact read _ header
    · cases header

end Messages

namespace TimedPump

variable {num : Numerals} {start : ℚ}

/-- A message moves the position forward, and sends nothing itself. -/
theorem Paced.receive {s : TimedPump} (paced : Paced start s)
    (publish : Message → Except PyError Unit) (msg : List UInt8) :
    Paced start { s with consumer := (onCopyMessage num publish s.consumer msg).1 } := by
  have moved := onCopyMessage_lastLsn num publish s.consumer msg
  refine ⟨?_, paced.readable, paced.forward, ?_, paced.spaced⟩
  · dsimp only
    rw [moved]
    cases header : headerLsn msg with
    | none => exact paced.position
    | some lsn =>
      -- the position is the old one or the one of the header, both of eight bytes
      rcases max_choice s.consumer.lastLsn lsn with kept | reached
      · rw [Option.elim_some, kept]
        exact paced.position
      · rw [Option.elim_some, reached]
        exact headerLsn_inRange header
  · intro u member
    refine (paced.received u member).trans ?_
    dsimp only
    rw [moved]
    cases headerLsn msg with
    | none => exact le_refl _
    | some lsn => exact le_max_left _ _

/-- What a turn that ends well leaves: the position it took in, its reply, and an update that
is less than a second old. -/
structure Turned (start : ℚ) (s : TimedPump) (t : Turn) (s' : TimedPump) : Prop where
  current : Current start s'
  recent : ∀ now, t.now = some now → now < s'.lastFeedback + 1
  position : s'.consumer.lastLsn = t.lsn.elim s.consumer.lastLsn (max s.consumer.lastLsn)
  forced : s'.forced = s.forced ++ if t.asks then [s'.consumer.lastLsn] else []

/-- The update that ends a turn, for a state the turn's message has led to. -/
theorem Paced.idle {s s' : TimedPump} {t : Turn} (paced : Paced start s')
    (current : Current start s') (o : Occasion) (now : t.now = some o.now)
    (position : s'.consumer.lastLsn = t.lsn.elim s.consumer.lastLsn (max s.consumer.lastLsn))
    (forced : s'.forced = s.forced ++ if t.asks then [s'.consumer.lastLsn] else []) :
    Paced start (s'.sendFeedback false o).1 ∧
      ((s'.sendFeedback false o).2 = .ok () → Turned start s t (s'.sendFeedback false o).1) := by
  refine ⟨paced.sendFeedback false o fun _ => current, fun done => ?_⟩
  obtain ⟨current', recent⟩ := current.sendFeedback done
  have kept := sendFeedback_consumer s' false o
  refine ⟨current', ?_, ?_, ?_⟩
  · intro reading same
    rw [now] at same
    cases same
    exact recent
  · rw [kept]
    exact position
  · rw [forced_sendFeedback done, kept, forced]
    simp

theorem Paced.turn {s : TimedPump} (paced : Paced start s) (current : Current start s)
    (t : Turn) :
    Paced start (s.turn num t).1 ∧
      ((s.turn num t).2 = .ok () → Turned start s t (s.turn num t).1) := by
  cases t with
  | raises e => exact ⟨paced, nofun⟩
  | idle o => exact paced.idle current o rfl rfl (by simp [Turn.asks])
  -- first the message is handled, then a reply is forced if it asks, then the turn is idle
  | message publish msg asked o =>
    have received := @Paced.receive num start s paced publish msg
    have moved := onCopyMessage_lastLsn num publish s.consumer msg
    unfold TimedPump.turn
    dsimp only
    cases handled : onCopyMessage num publish s.consumer msg with
    | mk c outcome =>
      rw [handled] at received moved
      cases outcome with
      | error e => exact ⟨received, nofun⟩
      | ok reply =>
        have asks := onCopyMessage_asks asked o handled
        have current' : Current start { s with consumer := c } := current
        cases reply with
        | false =>
          refine received.idle current' o rfl moved ?_
          rw [← asks]
          simp [forced]
        | true =>
          -- the forced reply sends the position after the message, not before it
          have replied := received.sendFeedback true asked (fun free => nomatch free)
          have kept := sendFeedback_consumer { s with consumer := c } true asked
          dsimp only at replied kept ⊢
          cases answer : TimedPump.sendFeedback { s with consumer := c } true asked with
          | mk s' outcome =>
            rw [answer] at replied kept
            cases outcome with
            | error e => exact ⟨replied, nofun⟩
            | ok _ =>
              have done :
                  (TimedPump.sendFeedback { s with consumer := c } true asked).2 = .ok () := by
                rw [answer]
              have last := (current'.sendFeedback done).1
              have confirmed := forced_sendFeedback done
              rw [answer] at last confirmed
              refine replied.idle last o rfl (by rw [kept]; exact moved) ?_
              rw [confirmed, ← asks, kept]
              rfl

/-- The run rule of the loop: what a turn keeps is kept to its end, and in a loop that ends
well every request was answered with its position. -/
theorem Paced.pump {turns : List Turn} {s : TimedPump} (paced : Paced start s)
    (current : Current start s) :
    Paced start (s.pump num turns).1 ∧
      ((s.pump num turns).2 = .ok () → Current start (s.pump num turns).1 ∧
        (s.pump num turns).1.forced = s.forced ++ answers s.consumer.lastLsn turns ∧
        ∀ t ∈ turns.getLast?, ∀ now, t.now = some now →
          now < (s.pump num turns).1.lastFeedback + 1) := by
  -- every turn starts from what the one before it left, so the start is generalised
  induction turns generalizing s with
  | nil => exact ⟨paced, fun _ => ⟨current, by simp [TimedPump.pump, answers], nofun⟩⟩
  | cons t ts ih =>
    obtain ⟨paced', turned⟩ := @Paced.turn num start s paced current t
    unfold TimedPump.pump
    cases step : s.turn num t with
    | mk s' outcome =>
      rw [step] at paced' turned
      cases outcome with
      -- the loop ends with the first turn that raises
      | error e => exact ⟨paced', nofun⟩
      | ok _ =>
        have turned := turned rfl
        obtain ⟨rest, kept⟩ := ih paced' turned.current
        refine ⟨rest, fun done => ?_⟩
        obtain ⟨last, forced, recent⟩ := kept done
        refine ⟨last, ?_, ?_⟩
        · rw [forced, turned.forced, answers, ← turned.position, List.append_assoc]
        -- only the last turn has to be recent at the end
        · cases ts with
          | nil =>
            intro t' same now reading
            cases same
            exact turned.recent now reading
          | cons t' ts => exact recent

theorem Paced.closed {s : TimedPump} (paced : Paced start s) (closing : Occasion)
    (stamped : InRange 8 closing.micros) (writable : ∀ buf, closing.put buf = .ok ()) :
    ∃ u ∈ (s.sendFeedback true closing).1.sent.getLast?, u.lsn = s.consumer.lastLsn := by
  obtain ⟨buf, packed⟩ : ∃ buf, packStatusUpdate s.consumer.lastLsn closing.micros = .ok buf :=
    ⟨_, if_pos ⟨paced.position, stamped⟩⟩
  refine ⟨⟨true, closing.now, closing.micros, s.consumer.lastLsn, buf⟩, ?_, rfl⟩
  unfold TimedPump.sendFeedback
  rw [if_neg (fun early => nomatch early.1), packed]
  dsimp only
  rw [writable buf]
  cases closing.flush <;> simp

end TimedPump

/-- Whatever the stream, the clock and the connection do, the updates of a run can be read,
never go back and are spaced. While it goes well, each request is answered with the position
it found and no turn ends a second after the last update; at the end the position is
confirmed. -/
theorem run_paced (num : Numerals) (start : ℚ) (turns : List Turn) (closing : Occasion) :
    (TimedPump.run num start turns closing).1.Paced start ∧
      ((TimedPump.run num start turns closing).2 = .ok () →
        ((TimedPump.started start).pump num turns).1.forced = answers 0 turns ∧
        ∀ t ∈ turns.getLast?, ∀ now, t.now = some now →
          now < latest start ((TimedPump.started start).pump num turns).1.sent + 1) ∧
      (InRange 8 closing.micros → (∀ buf, closing.put buf = .ok ()) →
        ∃ u ∈ (TimedPump.run num start turns closing).1.sent.getLast?,
          u.lsn = (TimedPump.run num start turns closing).1.consumer.lastLsn) := by
  obtain ⟨paced, kept⟩ := @TimedPump.Paced.pump num start turns _ (TimedPump.paced_started start)
    rfl
  have consumer := TimedPump.sendFeedback_consumer ((TimedPump.started start).pump num turns).1
    true closing
  refine ⟨paced.sendFeedback true closing (fun free => nomatch free), fun done => ?_, ?_⟩
  -- the loop ended well, so the last update is that of its last turn
  · obtain ⟨current, forced, recent⟩ := kept done
    refine ⟨forced, ?_⟩
    rw [← current]
    exact recent
  -- however it ended, the finally block confirms the last position
  · intro stamped writable
    obtain ⟨u, last, confirmed⟩ := paced.closed closing stamped writable
    exact ⟨u, last, confirmed.trans (congrArg Consumer.lastLsn consumer).symm⟩

section Untimed

/-- A message with what publishing does while it is handled. -/
abbrev Handled := (Message → Except PyError Unit) × List UInt8

def Turn.handled : Turn → Option Handled
  | .message publish msg _ _ => some (publish, msg)
  | _ => none

def Input.handled : Input → Option Handled
  | .message publish msg => some (publish, msg)
  | .feedback => none

variable {num : Numerals}

/-- The turns the loop gets to: the first that raises is the last. -/
def TimedPump.performed (num : Numerals) (s : TimedPump) : List Turn → List Turn
  | [] => []
  | t :: ts =>
    match s.turn num t with
    | (_, .error _) => [t]
    | (s, .ok ()) => t :: performed num s ts

theorem TimedPump.performed_prefix (s : TimedPump) (turns : List Turn) :
    s.performed num turns <+: turns := by
  induction turns generalizing s with
  | nil => exact List.prefix_rfl
  | cons t ts ih =>
    unfold TimedPump.performed
    split
    · exact ⟨ts, rfl⟩
    next s' _ => exact (List.prefix_cons_inj t).mpr (ih s')

/-- The pump without a clock is in the same state, and has made at least these updates. -/
structure Follows (s : TimedPump) (p : Pump) : Prop where
  consumer : p.consumer = s.consumer
  updates : (s.sent.map StatusUpdate.lsn).Sublist (p.updates.map Update.lsn)

variable (num) in
theorem Follows.sendFeedback {s : TimedPump} {p : Pump} (follows : Follows s p) (force : Bool)
    (o : Occasion) :
    ∃ inputs : List Input, inputs.filterMap Input.handled = [] ∧
      Follows (s.sendFeedback force o).1 (inputs.foldl (Pump.step num) p) := by
  obtain ⟨same, _⟩ | ⟨buf, last, _, _, sent, _⟩ := s.sendFeedback_cases force o
  · exact ⟨[], rfl, by rw [same]; exact follows⟩
  · refine ⟨[.feedback], rfl, ?_⟩
    rw [sent]
    refine ⟨follows.consumer, ?_⟩
    have update : (Pump.step num p .feedback).updates.map Update.lsn =
        p.updates.map Update.lsn ++ [s.consumer.lastLsn] := by
      simp [Pump.step, Pump.sendFeedback, follows.consumer]
    rw [List.foldl_cons, List.foldl_nil, update, List.map_append]
    exact follows.updates.append (List.Sublist.refl _)

/-- What the untimed pump confirms of a message. -/
def confirmed (c : Consumer) : Except PyError Bool → List Int
  | .ok true => [c.lastLsn]
  | .ok false => []
  | .error _ => []

theorem step_handled {p : Pump} {publish : Message → Except PyError Unit} {msg : List UInt8}
    {c : Consumer} {outcome : Except PyError Bool}
    (handled : onCopyMessage num publish p.consumer msg = (c, outcome)) :
    (p.step num (.message publish msg)).consumer = c ∧
      (p.step num (.message publish msg)).updates.map Update.lsn =
        p.updates.map Update.lsn ++ confirmed c outcome := by
  unfold Pump.step
  dsimp only
  rw [handled]
  cases outcome with
  | error e => simp [confirmed]
  | ok reply => cases reply <;> simp [Pump.sendFeedback, confirmed]

variable (num) in
theorem Follows.turn {s : TimedPump} {p : Pump} (follows : Follows s p) (t : Turn) :
    ∃ inputs : List Input, inputs.filterMap Input.handled = t.handled.toList ∧
      Follows (s.turn num t).1 (inputs.foldl (Pump.step num) p) := by
  cases t with
  | raises e => exact ⟨[], rfl, follows⟩
  | idle o => exact follows.sendFeedback num false o
  | message publish msg asked o =>
    unfold TimedPump.turn
    dsimp only
    cases handled : onCopyMessage num publish s.consumer msg with
    | mk c outcome =>
      have handled' := handled
      rw [← follows.consumer] at handled'
      obtain ⟨consumer, updates⟩ := step_handled handled'
      cases outcome with
      | error e =>
        refine ⟨[.message publish msg], rfl, consumer, ?_⟩
        rw [List.foldl_cons, List.foldl_nil, updates, confirmed, List.append_nil]
        exact follows.updates
      | ok reply =>
        cases reply with
        | false =>
          have next : Follows { s with consumer := c } (p.step num (.message publish msg)) := by
            refine ⟨consumer, ?_⟩
            rw [updates, confirmed, List.append_nil]
            exact follows.updates
          obtain ⟨inputs, silent, follows'⟩ := next.sendFeedback num false o
          exact ⟨.message publish msg :: inputs, by simp [Input.handled, Turn.handled, silent],
            follows'⟩
        | true =>
          -- the untimed pump has sent its reply, and the timed one may fail to
          have next : Follows (TimedPump.sendFeedback { s with consumer := c } true asked).1
              (p.step num (.message publish msg)) := by
            have kept := TimedPump.sendFeedback_consumer { s with consumer := c } true asked
            refine ⟨consumer.trans kept.symm, ?_⟩
            rw [updates]
            obtain ⟨same, _⟩ | ⟨buf, last, _, _, sent, _⟩ :=
              TimedPump.sendFeedback_cases { s with consumer := c } true asked
            · rw [same]
              exact follows.updates.trans (List.sublist_append_left _ _)
            · rw [sent, List.map_append]
              exact follows.updates.append (List.Sublist.refl _)
          dsimp only
          cases answer : TimedPump.sendFeedback { s with consumer := c } true asked with
          | mk s' outcome =>
            rw [answer] at next
            cases outcome with
            | error e => exact ⟨[.message publish msg], rfl, next⟩
            | ok _ =>
              obtain ⟨inputs, silent, follows'⟩ := next.sendFeedback num false o
              exact ⟨.message publish msg :: inputs,
                by simp [Input.handled, Turn.handled, silent], follows'⟩

variable (num) in
theorem Follows.pump (turns : List Turn) {s : TimedPump} {p : Pump} (follows : Follows s p) :
    ∃ inputs : List Input,
      inputs.filterMap Input.handled = (s.performed num turns).filterMap Turn.handled ∧
      Follows (s.pump num turns).1 (inputs.foldl (Pump.step num) p) := by
  -- the inputs of the whole run are those of its turns, one after the other
  induction turns generalizing s p with
  | nil => exact ⟨[], rfl, follows⟩
  | cons t ts ih =>
    obtain ⟨inputs, handled, follows'⟩ := follows.turn num t
    unfold TimedPump.pump TimedPump.performed
    cases step : s.turn num t with
    | mk s' outcome =>
      rw [step] at follows'
      cases outcome with
      -- the turn that raises is performed too, and is the last
      | error e =>
        refine ⟨inputs, ?_, follows'⟩
        rw [handled]
        cases h : t.handled <;> simp [h]
      | ok _ =>
        obtain ⟨later, same, reached⟩ := ih follows'
        refine ⟨inputs ++ later, ?_, ?_⟩
        · rw [List.filterMap_append, handled, same]
          cases h : t.handled <;> simp [h]
        · rw [List.foldl_append]
          exact reached

/-- Every run under the clock is one of the pump without it, on the messages of the turns it
performed: the same state, and every position confirmed is among that pump's updates. -/
theorem run_follows (num : Numerals) (start : ℚ) (turns : List Turn) (closing : Occasion) :
    (TimedPump.started start).performed num turns <+: turns ∧ ∃ inputs : List Input,
      inputs.filterMap Input.handled =
        ((TimedPump.started start).performed num turns).filterMap Turn.handled ∧
      Follows (TimedPump.run num start turns closing).1 (Pump.play num inputs) := by
  refine ⟨TimedPump.performed_prefix _ turns, ?_⟩
  have fresh : Follows (TimedPump.started start) Pump.start := ⟨rfl, .slnil⟩
  obtain ⟨inputs, handled, follows⟩ := fresh.pump num turns
  obtain ⟨last, silent, follows'⟩ := follows.sendFeedback num true closing
  refine ⟨inputs ++ last, ?_, ?_⟩
  · rw [List.filterMap_append, silent, List.append_nil]
    exact handled
  · rw [Pump.play_append]
    exact follows'

end Untimed

end FleetTelemetry.Cdc
