import FleetTelemetry.Cdc.Receiving
import Mathlib.Data.List.Induction

/-!
# What a standby status update confirms

A `CdcConsumer` from one CopyData payload to the next, with the updates it sends. The
position is advanced before a message is decoded, so a message that raises leaves its
position behind, to be confirmed by the next update.
-/

namespace FleetTelemetry.Cdc

open Foundations Foundations.Wire

/-- The position a CopyData header carries, if it can be read. -/
def headerLsn (msg : List UInt8) : Option Int :=
  if msg.take 1 = [119] then (Bytes.unpackFrom 8 msg 9).toOption
  else if msg.take 1 = [107] then
    if msg.length < 18 then none else (Bytes.unpackFrom 8 msg 1).toOption
  else none

/-- An update as it is sent, with the largest position of the messages handled without
raising by then. -/
structure Update where
  lsn : Int
  processed : Int

structure Pump where
  consumer : Consumer
  handled : List Int
  updates : List Update

/-- A CopyData payload, with what publishing would do, or an update that is due. -/
inductive Input where
  | message (publish : Message → Except PyError Unit) (msg : List UInt8)
  | feedback

namespace Pump

variable (num : Numerals)

def start : Pump := ⟨.new, [], []⟩

def processed (s : Pump) : Int := s.handled.foldl max 0

def sendFeedback (s : Pump) : Pump :=
  { s with updates := s.updates ++ [⟨s.consumer.lastLsn, s.processed⟩] }

def step (s : Pump) : Input → Pump
  -- the forced update of `finally`, or one that the clock lets through
  | .feedback => s.sendFeedback
  | .message publish msg =>
    match onCopyMessage num publish s.consumer msg with
    | (c, .error _) => { s with consumer := c }
    | (c, .ok reply) =>
      let s := { s with consumer := c, handled := s.handled ++ (headerLsn msg).toList }
      if reply then s.sendFeedback else s

def play (inputs : List Input) : Pump := inputs.foldl (step num) start

/-- The message raises when it is handled in this state. -/
def Raises (s : Pump) (publish : Message → Except PyError Unit) (msg : List UInt8) : Prop :=
  ∃ e, (onCopyMessage num publish s.consumer msg).2 = .error e

end Pump

/-- A message that raises leaves the position alone, and no update from then on confirms
more than what was handled without raising. -/
def ProcessedOnly (num : Numerals) (inputs : List Input) : Prop :=
  ∀ earlier publish msg later, inputs = earlier ++ .message publish msg :: later →
    (Pump.play num earlier).Raises num publish msg →
    (Pump.play num (earlier ++ [.message publish msg])).consumer.lastLsn =
        (Pump.play num earlier).consumer.lastLsn ∧
      ∀ u ∈ (Pump.play num inputs).updates.drop
          (Pump.play num (earlier ++ [.message publish msg])).updates.length,
        u.lsn ≤ u.processed

/-- No message that raises is ahead of the position it is handled at. -/
def RaisesBehind (num : Numerals) (inputs : List Input) : Prop :=
  ∀ earlier publish msg later, inputs = earlier ++ .message publish msg :: later →
    (Pump.play num earlier).Raises num publish msg →
    ∀ lsn, headerLsn msg = some lsn → lsn ≤ (Pump.play num earlier).consumer.lastLsn

section Position

variable {num : Numerals} {publish : Message → Except PyError Unit}

theorem cacheRelation_lastLsn {c c' : Consumer} {r : Reader} (done : cacheRelation c r = .ok c') :
    c'.lastLsn = c.lastLsn := by
  obtain ⟨_, _, rest⟩ := except_bind_ok done
  obtain ⟨_, _, rest⟩ := except_bind_ok rest
  obtain ⟨_, _, rest⟩ := except_bind_ok rest
  obtain ⟨_, _, rest⟩ := except_bind_ok rest
  obtain ⟨_, _, rest⟩ := except_bind_ok rest
  obtain ⟨_, _, last⟩ := except_bind_ok rest
  cases last
  rfl

theorem emit_lastLsn {c c' : Consumer} {oid : Int} {values : OrdMap String Datum}
    (done : emit num publish c oid values = .ok c') : c'.lastLsn = c.lastLsn := by
  obtain ⟨⟨relname, columns⟩, _, rest⟩ := except_bind_ok done
  dsimp only at rest
  split at rest
  · cases rest
    rfl
  · obtain ⟨_, _, rest⟩ := except_bind_ok rest
    obtain ⟨_, _, rest⟩ := except_bind_ok rest
    obtain ⟨_, _, last⟩ := except_bind_ok rest
    cases last
    rfl

theorem decodePgoutput_lastLsn {c c' : Consumer} {payload : List UInt8}
    (done : decodePgoutput num publish c payload = .ok c') : c'.lastLsn = c.lastLsn := by
  rw [decodePgoutput_eq] at done
  split at done
  · exact cacheRelation_lastLsn done
  · obtain ⟨change, _, emitted⟩ := except_bind_ok done
    cases change with
    | none =>
      cases emitted
      rfl
    | some change => exact emit_lastLsn emitted

variable (num publish) in
/-- The position takes in every header that can be read, whether or not the message is
handled to its end. -/
theorem onCopyMessage_lastLsn (c : Consumer) (msg : List UInt8) :
    (onCopyMessage num publish c msg).1.lastLsn =
      (headerLsn msg).elim c.lastLsn (max c.lastLsn) := by
  unfold onCopyMessage headerLsn
  split
  · cases header : Bytes.unpackFrom 8 msg 9 with
    | error e => rfl
    | ok walEnd =>
      dsimp only
      split
      · rfl
      next c' done => exact decodePgoutput_lastLsn done
  · split
    · split
      · rfl
      next long =>
        -- a header of 18 bytes has its reply flag
        have flag : msg[17]? = some msg[17] := List.getElem?_eq_getElem (by omega)
        rw [flag]
        cases Bytes.unpackFrom 8 msg 1 <;> rfl
    · rfl

end Position

namespace Pump

variable {num : Numerals} {publish : Message → Except PyError Unit}

theorem play_append (inputs later : List Input) :
    play num (inputs ++ later) = later.foldl (step num) (play num inputs) :=
  List.foldl_append

theorem play_snoc (inputs : List Input) (i : Input) :
    play num (inputs ++ [i]) = (play num inputs).step num i := by
  rw [play_append]
  rfl

theorem processed_append (s : Pump) (lsn : Option Int) (c : Consumer) :
    processed { s with consumer := c, handled := s.handled ++ lsn.toList } =
      lsn.elim s.processed (max s.processed) := by
  cases lsn with
  | none => simp [processed]
  | some lsn => simp [processed, List.foldl_append]

variable (num) in
theorem step_lastLsn (s : Pump) (publish : Message → Except PyError Unit) (msg : List UInt8) :
    (s.step num (.message publish msg)).consumer.lastLsn =
      (headerLsn msg).elim s.consumer.lastLsn (max s.consumer.lastLsn) := by
  rw [← onCopyMessage_lastLsn num publish]
  unfold step
  dsimp only
  cases handled : onCopyMessage num publish s.consumer msg with
  | mk c outcome =>
    cases outcome with
    | error e => rfl
    | ok reply => cases reply <;> rfl

/-- The position, and every update sent, is one that was processed. -/
structure Honest (s : Pump) : Prop where
  position : s.consumer.lastLsn ≤ s.processed
  updates : ∀ u ∈ s.updates, u.lsn ≤ u.processed

theorem Honest.sendFeedback {s : Pump} (honest : s.Honest) : s.sendFeedback.Honest := by
  refine ⟨honest.position, ?_⟩
  intro u member
  rcases List.mem_append.mp member with old | new
  · exact honest.updates u old
  · obtain rfl := List.mem_singleton.mp new
    exact honest.position

theorem Honest.step {s : Pump} (honest : s.Honest) (i : Input)
    (behind : ∀ publish msg, i = .message publish msg → s.Raises num publish msg →
      ∀ lsn, headerLsn msg = some lsn → lsn ≤ s.consumer.lastLsn) : (s.step num i).Honest := by
  cases i with
  | feedback => exact honest.sendFeedback
  | message publish msg =>
    have moved := step_lastLsn num s publish msg
    have position := honest.position
    unfold Pump.step at moved ⊢
    dsimp only at moved ⊢
    cases handled : onCopyMessage num publish s.consumer msg with
    | mk c outcome =>
      rw [handled] at moved
      cases outcome with
      | error e =>
        -- the message raised, so its header is not ahead of the position it found
        have raised : s.Raises num publish msg := ⟨e, by rw [handled]⟩
        refine ⟨?_, honest.updates⟩
        refine moved.le.trans (le_trans ?_ position)
        cases header : headerLsn msg with
        | none => exact le_refl _
        | some lsn => exact max_le (le_refl _) (behind publish msg rfl raised lsn header)
      | ok reply =>
        have moved' : c.lastLsn =
            (headerLsn msg).elim s.consumer.lastLsn (max s.consumer.lastLsn) := by
          cases reply <;> exact moved
        have next : Honest { s with
            consumer := c, handled := s.handled ++ (headerLsn msg).toList } := by
          refine ⟨?_, honest.updates⟩
          rw [processed_append]
          refine moved'.le.trans ?_
          cases headerLsn msg with
          | none => exact position
          | some lsn => exact max_le_max position (le_refl lsn)
        cases reply with
        | false => exact next
        | true => exact next.sendFeedback

/-- The run rule: while no message raises ahead of its position, every update is honest. -/
theorem honest_play {inputs : List Input} (behind : RaisesBehind num inputs) :
    (play num inputs).Honest := by
  induction inputs using List.reverseRecOn with
  | nil => exact ⟨le_refl 0, nofun⟩
  | append_singleton inputs i ih =>
    rw [play_snoc]
    have earlier : RaisesBehind num inputs := by
      intro before publish msg after split
      exact behind before publish msg (after ++ [i]) (by simp [split])
    apply (ih earlier).step i
    intro publish msg same
    exact behind inputs publish msg [] (by rw [same])

end Pump

/-- In every run, only processed positions are confirmed exactly if no message raises whose
header is ahead of the position it is handled at. -/
theorem processedOnly_iff (num : Numerals) (inputs : List Input) :
    ProcessedOnly num inputs ↔ RaisesBehind num inputs := by
  constructor
  · intro only earlier publish msg later split raised lsn header
    obtain ⟨kept, _⟩ := only earlier publish msg later split raised
    rw [Pump.play_snoc, Pump.step_lastLsn, header] at kept
    exact max_eq_left_iff.mp kept
  · intro behind earlier publish msg later split raised
    constructor
    · rw [Pump.play_snoc, Pump.step_lastLsn]
      cases header : headerLsn msg with
      | none => rfl
      | some lsn => exact max_eq_left (behind earlier publish msg later split raised lsn header)
    · intro u member
      exact (Pump.honest_play behind).updates u (List.mem_of_mem_drop member)

section Unpublished

def countedEntry : PgMessage :=
  .insert zoneCountsRelation.oid
    ⟨[.text "charging_1", .text "1"], firstCount_fits, firstCount_texts_fit⟩

/-- A counted entry whose event the channel refuses, and the update of `finally`. -/
def unpublishedEntry : List Input :=
  [.message (fun _ => .ok ()) (CopyData.xlogData ⟨0, by decide⟩ ⟨0, by decide⟩ ⟨0, by decide⟩
      (PgMessage.relation zoneCountsRelation).encode).encode,
    .message (fun _ => .error .valueError) (CopyData.xlogData ⟨100, by decide⟩ ⟨200, by decide⟩
      ⟨0, by decide⟩ countedEntry.encode).encode,
    .feedback]

theorem countedEntry_refused (c : Consumer) (cached : Cached c [.relation zoneCountsRelation]) :
    decodePgoutput digit (fun _ => .error .valueError) c countedEntry.encode =
      .error .valueError := by
  have described : Described digit [.relation zoneCountsRelation] countedEntry :=
    ⟨zoneCountsRelation, rfl, zoneCountRow_describes _ _ "1" 1 rfl (by decide) rfl (by decide)
      (by decide) rfl rfl⟩
  have known : (event digit [.relation zoneCountsRelation] countedEntry).isSome = true := by
    decide
  obtain ⟨message, present⟩ := Option.isSome_iff_exists.mp known
  rw [decodePgoutput_encode c _ _ cached described, present]
  rfl

theorem headerLsn_xlogData (walStart walEnd clock : WireInt 8) (payload : List UInt8) :
    headerLsn (CopyData.xlogData walStart walEnd clock payload).encode = some walEnd.val := by
  have tag : (CopyData.xlogData walStart walEnd clock payload).encode.take 1 = [119] := rfl
  rw [headerLsn, if_pos tag, unpackFrom_xlogData]
  rfl

/-- The update confirms position 200, and nothing past 0 was handled without raising. -/
theorem unpublishedEntry_confirmed :
    ¬ProcessedOnly digit unpublishedEntry ∧
      (Pump.play digit unpublishedEntry).updates.map (fun u => (u.lsn, u.processed)) =
        [(200, 0)] := by
  have first : Pump.play digit (unpublishedEntry.take 1) =
      ⟨Consumer.new.remember (.relation zoneCountsRelation), [0], []⟩ := by
    simp only [unpublishedEntry, List.take_succ_cons, List.take_zero, Pump.play, List.foldl_cons,
      List.foldl_nil, Pump.step, onCopyMessage_xlogData, decodePgoutput_relation,
      headerLsn_xlogData]
    rfl
  -- the position is stored before the payload is read, so the failing update has moved it
  have refused := fun lsn => countedEntry_refused
    { Consumer.new.remember (.relation zoneCountsRelation) with lastLsn := lsn }
    (cached_new.remember (.relation zoneCountsRelation))
  have second : Pump.play digit (unpublishedEntry.take 2) =
      ⟨{ Consumer.new.remember (.relation zoneCountsRelation) with lastLsn := 200 }, [0], []⟩ := by
    have split : unpublishedEntry.take 2 = unpublishedEntry.take 1 ++ [unpublishedEntry[1]] := rfl
    rw [split, Pump.play_snoc, first]
    simp only [unpublishedEntry, List.getElem_cons_succ, List.getElem_cons_zero, Pump.step,
      onCopyMessage_xlogData, refused]
    rfl
  constructor
  · intro only
    have raised : (Pump.play digit (unpublishedEntry.take 1)).Raises digit
        (fun _ => .error .valueError) (CopyData.xlogData ⟨100, by decide⟩ ⟨200, by decide⟩
          ⟨0, by decide⟩ countedEntry.encode).encode := by
      refine ⟨.valueError, ?_⟩
      rw [first, onCopyMessage_xlogData, refused]
    -- processing only would leave the position of the relation message
    have kept := (only (unpublishedEntry.take 1) _ _ [.feedback] rfl raised).1
    have split : unpublishedEntry.take 1 ++ [unpublishedEntry[1]] = unpublishedEntry.take 2 := rfl
    have moved : (Pump.play digit (unpublishedEntry.take 2)).consumer.lastLsn =
        (Pump.play digit (unpublishedEntry.take 1)).consumer.lastLsn := by
      rw [← split]
      exact kept
    rw [first, second] at moved
    exact absurd moved (by decide)
  · have split : unpublishedEntry = unpublishedEntry.take 2 ++ [.feedback] := rfl
    rw [split, Pump.play_snoc, second]
    rfl

end Unpublished

end FleetTelemetry.Cdc
