import FleetTelemetry.Foundations.Machine
import FleetTelemetry.Frontend.Fidelity

/-!
# The dashboard's transport

The subscriptions of one `createHttpTransport` share the variable that holds the socket, and
an unsubscribe function reads it when it is run. The `open` and `close` listeners, which
only drive the connection badge, are left out.
-/

namespace FleetTelemetry.Frontend

open Foundations

/-- `MessageEvent.data`: a text frame, or a binary one. -/
inductive MessageData where
  | text (frame : List Char)
  | binary

/-- What `onMessage` hands to the handler. -/
def onMessage (floats : Floats) (data : MessageData) : Option (List UInt16 × Json Double) :=
  let decoded := jsonParse floats (match data with | .text frame => frame | .binary => [])
  decoded.bind parsePatch

inductive TransportAction where
  | subscribe
  | unsubscribe (k : Nat)
  | deliver (socket : Nat) (data : MessageData)
  /-- The connection ends on the other side. -/
  | lost (socket : Nat)

/-- The `k`th call of `subscribe` makes the `k`th socket, and the `k`th handler. -/
structure Transport where
  sockets : Nat
  /-- The shared variable. -/
  socket : Option Nat
  /-- The subscriptions whose `onMessage` listens on a socket. -/
  listeners : Nat → List Nat
  closed : Nat → Bool
  /-- The calls of the handlers. -/
  handled : List (Nat × (List UInt16 × Json Double))

namespace Transport

def created : Transport := ⟨0, none, fun _ => [], fun _ => false, []⟩

/-- A new socket, on which the `onMessage` of the new subscription listens. -/
def connect (t : Transport) : Transport where
  sockets := t.sockets + 1
  socket := some t.sockets
  listeners := Function.update t.listeners t.sockets [t.sockets]
  closed := Function.update t.closed t.sockets false
  handled := t.handled

def removeEventListener (t : Transport) (socket k : Nat) : Transport :=
  { t with listeners := Function.update t.listeners socket ((t.listeners socket).erase k) }

def close (t : Transport) (socket : Nat) : Transport :=
  { t with closed := Function.update t.closed socket true }

def dispatch (t : Transport) (socket : Nat) (event : List UInt16 × Json Double) : Transport :=
  { t with handled := t.handled ++ (t.listeners socket).map fun k => (k, event) }

def step (floats : Floats) (t : Transport) : TransportAction → Option Transport
  | .subscribe => some t.connect
  | .unsubscribe k =>
    if k < t.sockets then
      match t.socket with
      | none => some t
      | some socket => some ((t.removeEventListener socket k).close socket)
    else none
  -- a closed socket delivers no further message
  | .deliver socket data =>
    if socket < t.sockets ∧ t.closed socket = false then
      match onMessage floats data with
      | none => some t
      | some event => some (t.dispatch socket event)
    else none
  | .lost socket => if socket < t.sockets then some (t.close socket) else none

/-- What the handler of a subscription has been called with. -/
def handledBy (t : Transport) (k : Nat) : List (List UInt16 × Json Double) :=
  (t.handled.filter fun call => call.1 = k).map Prod.snd

/-- The step of an unsubscribe function closes its own socket, and no other. -/
def ClosesOwn (floats : Floats) (t : Transport) (a : TransportAction) : Prop :=
  ∀ k, a = .unsubscribe k → ∀ t', t.step floats a = some t' →
    t'.closed = Function.update t.closed k true

/-- An unsubscribe function is run while its own socket is the last one that was opened, or
when neither of the two is open. -/
def OwnLast (t : Transport) : TransportAction → Prop
  | .unsubscribe k =>
    t.socket = some k ∨ t.closed k = true ∧ t.socket.all t.closed = true
  | _ => True

instance (t : Transport) : ∀ a, Decidable (t.OwnLast a)
  | .unsubscribe k =>
    inferInstanceAs (Decidable (t.socket = some k ∨ t.closed k = true ∧ t.socket.all t.closed))
  | .subscribe | .deliver _ _ | .lost _ => isTrue trivial

end Transport

/-- The event that an action delivers on the subscription's own socket, if any. -/
def frameOf (floats : Floats) (k : Nat) : TransportAction → Option (List UInt16 × Json Double)
  | .deliver socket data => if socket = k then onMessage floats data else none
  | _ => none

/-- The well-formed frames of known type that a subscription's socket delivers, in order. -/
def framesOf (floats : Floats) (k : Nat) (as : List TransportAction) :
    List (List UInt16 × Json Double) :=
  as.filterMap (frameOf floats k)

def isUnsubscribe (k : Nat) : TransportAction → Bool
  | .unsubscribe k' => k' = k
  | _ => false

/-- The frames of its own socket up to its unsubscribe. -/
def due (floats : Floats) (k : Nat) (as : List TransportAction) :
    List (List UInt16 × Json Double) :=
  framesOf floats k (as.takeWhile fun a => !isUnsubscribe k a)

/-- In every state of the run each handler has been called with the frames that were due to
it, and each unsubscribe function closes its own socket and no other. -/
def Independent (floats : Floats) (as : List TransportAction) : Prop :=
  Machine.Meets (Transport.ClosesOwn floats) (Transport.step floats) .created as ∧
    ∀ earlier later, earlier ++ later = as → ∀ t,
      Machine.run (Transport.step floats) .created earlier = some t →
        ∀ k, t.handledBy k = due floats k earlier

section Frames

variable (floats : Floats) (k : Nat)

theorem framesOf_append (as bs : List TransportAction) :
    framesOf floats k (as ++ bs) = framesOf floats k as ++ framesOf floats k bs :=
  List.filterMap_append

theorem isUnsubscribe_iff (a : TransportAction) :
    isUnsubscribe k a = true ↔ a = .unsubscribe k := by
  cases a with
  | unsubscribe k' => simp [isUnsubscribe]
  | subscribe | deliver | lost => simp [isUnsubscribe]

/-- After its unsubscribe nothing is due to a handler. -/
theorem due_unsubscribed {as : List TransportAction} (ended : .unsubscribe k ∈ as)
    (a : TransportAction) : due floats k (as ++ [a]) = due floats k as := by
  -- what is due ends before the unsubscribe, and so before the new action
  have stops : (as.takeWhile fun a => !isUnsubscribe k a).length ≠ as.length := by
    intro whole
    have all := List.takeWhile_eq_self_iff.mp
      ((List.takeWhile_prefix _).eq_of_length whole) _ ended
    rw [(isUnsubscribe_iff k _).mpr rfl] at all
    cases all
  rw [due, List.takeWhile_append, if_neg stops, due]

theorem due_subscribed {as : List TransportAction} (live : .unsubscribe k ∉ as)
    (a : TransportAction) :
    due floats k (as ++ [a]) = due floats k as ++ framesOf floats k [a] := by
  have all : ∀ a ∈ as, (!isUnsubscribe k a) = true := by
    intro a member
    rw [Bool.not_eq_true', Bool.eq_false_iff, ne_eq, isUnsubscribe_iff]
    rintro rfl
    exact live member
  have last : framesOf floats k ([a].takeWhile fun a => !isUnsubscribe k a) =
      framesOf floats k [a] := by
    cases a with
    -- an unsubscribe call delivers no frame, whether it is counted or not
    | unsubscribe k' =>
      rw [List.takeWhile_cons]
      split <;> rfl
    | subscribe | deliver | lost => rfl
  rw [due, List.takeWhile_append_of_pos all, framesOf_append, last, due,
    List.takeWhile_eq_self_iff.mpr all]

theorem framesOf_singleton (a : TransportAction) :
    framesOf floats k [a] = (frameOf floats k a).toList := by
  rw [framesOf, List.filterMap_cons, List.filterMap_nil]
  cases frameOf floats k a <;> rfl

end Frames

namespace Transport

section Updates

variable (t : Transport) (socket k : Nat)

theorem closed_connect : t.connect.closed k = if k = t.sockets then false else t.closed k :=
  Function.update_apply ..

theorem listeners_connect :
    t.connect.listeners k = if k = t.sockets then [t.sockets] else t.listeners k :=
  Function.update_apply ..

theorem closed_close : (t.close socket).closed k = if k = socket then true else t.closed k :=
  Function.update_apply ..

theorem listeners_removeEventListener (k' : Nat) :
    (t.removeEventListener socket k').listeners k =
      if k = socket then (t.listeners socket).erase k' else t.listeners k :=
  Function.update_apply ..

theorem closed_unsubscribe (k' : Nat) : ((t.removeEventListener socket k').close socket).closed k =
    if k = socket then true else t.closed k :=
  closed_close ..

end Updates

variable {floats : Floats} {t t' : Transport}

/-- What an action needs and what it changes. -/
theorem step_cases {a : TransportAction} (performed : t.step floats a = some t') :
    match a with
    | .subscribe => t' = t.connect
    | .unsubscribe k => k < t.sockets ∧ (t.socket = none ∧ t' = t ∨
        ∃ last, t.socket = some last ∧ t' = (t.removeEventListener last k).close last)
    | .deliver socket data => socket < t.sockets ∧ t.closed socket = false ∧
        (onMessage floats data = none ∧ t' = t ∨
          ∃ event, onMessage floats data = some event ∧ t' = t.dispatch socket event)
    | .lost socket => socket < t.sockets ∧ t' = t.close socket := by
  cases a with
  | subscribe =>
    cases performed
    rfl
  | unsubscribe k =>
    simp only [step] at performed
    split at performed
    next made =>
      -- the call closes the shared socket, whichever subscription it is of
      cases shared : t.socket with
      | none =>
        rw [shared] at performed
        cases performed
        exact ⟨made, .inl ⟨rfl, rfl⟩⟩
      | some last =>
        rw [shared] at performed
        cases performed
        exact ⟨made, .inr ⟨last, rfl, rfl⟩⟩
    · cases performed
  | deliver socket data =>
    simp only [step] at performed
    split at performed
    next isOpen =>
      -- a frame that is no patch is dropped
      cases decoded : onMessage floats data with
      | none =>
        rw [decoded] at performed
        cases performed
        exact ⟨isOpen.1, isOpen.2, .inl ⟨decoded, rfl⟩⟩
      | some event =>
        rw [decoded] at performed
        cases performed
        exact ⟨isOpen.1, isOpen.2, .inr ⟨event, decoded, rfl⟩⟩
    · cases performed
  | lost socket =>
    simp only [step] at performed
    split at performed
    next made =>
      cases performed
      exact ⟨made, rfl⟩
    · cases performed

/-- The call closes the last socket: its own, or else nothing may be left to close. -/
theorem closesOwn_iff {a : TransportAction} (performed : t.step floats a = some t') :
    t.ClosesOwn floats a ↔ t.OwnLast a := by
  cases a with
  | subscribe | deliver | lost => simp [ClosesOwn, OwnLast]
  | unsubscribe k =>
    have closes : t.ClosesOwn floats (.unsubscribe k) ↔
        t'.closed = Function.update t.closed k true := by
      constructor
      · intro closes
        exact closes k rfl t' performed
      · rintro same k' ⟨rfl⟩ t'' performed'
        rw [performed, Option.some.injEq] at performed'
        rwa [← performed']
    rw [closes, OwnLast]
    obtain ⟨made, ⟨unset, rfl⟩ | ⟨last, shared, rfl⟩⟩ := step_cases performed
    · simp [unset]
    · rw [shared, Option.some.injEq, Option.all_some]
      have last' : ((t.removeEventListener last k).close last).closed =
        Function.update t.closed last true := rfl
      rw [last']
      constructor
      · intro same
        by_cases own : last = k
        · exact .inl own
        -- another socket is closed, which only shows if one of the two was open
        · have mine := congrFun same k
          have other := congrFun same last
          rw [Function.update_self, Function.update_of_ne (Ne.symm own)] at mine
          rw [Function.update_self, Function.update_of_ne own] at other
          exact .inr ⟨mine, other.symm⟩
      · rintro (rfl | ⟨mine, other⟩)
        · rfl
        · rw [Function.update_eq_self_iff.mpr other.symm,
            Function.update_eq_self_iff.mpr mine.symm]

/-- What holds of a run whose unsubscribe calls close their own sockets. -/
structure Sound (floats : Floats) (as : List TransportAction) (t : Transport) : Prop where
  handled : ∀ k, t.handledBy k = due floats k as
  listening : ∀ k < t.sockets, t.closed k = false → t.listeners k = [k]
  ended : ∀ k, .unsubscribe k ∈ as → k < t.sockets ∧ t.closed k = true

theorem sound_created : Sound floats [] created where
  handled _ := rfl
  listening k made _ := absurd made (Nat.not_lt_zero k)
  ended k listed := by cases listed

/-- A step that calls no handler, and after which nothing more is due. -/
theorem handled_quiet {as : List TransportAction} {a : TransportAction}
    (sound : Sound floats as t) (quiet : t'.handled = t.handled)
    (silent : ∀ k, .unsubscribe k ∉ as → frameOf floats k a = none) (k : Nat) :
    t'.handledBy k = due floats k (as ++ [a]) := by
  rw [handledBy, quiet]
  refine (sound.handled k).trans ?_
  by_cases ended : .unsubscribe k ∈ as
  · rw [due_unsubscribed floats k ended]
  · rw [due_subscribed floats k ended, framesOf_singleton, silent k ended, Option.toList_none,
      List.append_nil]

/-- A socket that is closed stays closed. -/
theorem closed_kept {a : TransportAction} (performed : t.step floats a = some t') {k : Nat}
    (made : k < t.sockets) (ended : t.closed k = true) : k < t'.sockets ∧ t'.closed k = true := by
  have effect := step_cases performed
  cases a with
  | subscribe =>
    obtain rfl : t' = _ := effect
    -- a new socket has a number of its own, so it opens none of the old ones
    exact ⟨Nat.lt_succ_of_lt made, by rw [closed_connect, if_neg (Nat.ne_of_lt made), ended]⟩
  | unsubscribe k' =>
    obtain ⟨_, ⟨_, rfl⟩ | ⟨last, _, rfl⟩⟩ := effect
    · exact ⟨made, ended⟩
    · exact ⟨made, by rw [closed_unsubscribe, ended, ite_self]⟩
  | deliver socket data =>
    obtain ⟨_, _, ⟨_, rfl⟩ | ⟨event, _, rfl⟩⟩ := effect
    · exact ⟨made, ended⟩
    · exact ⟨made, ended⟩
  | lost socket =>
    obtain ⟨_, rfl⟩ := effect
    exact ⟨made, by rw [closed_close, ended, ite_self]⟩

/-- The socket of a subscription that has been ended is closed. -/
theorem ended_step {as : List TransportAction} {a : TransportAction} (sound : Sound floats as t)
    (own : t.OwnLast a) (performed : t.step floats a = some t') (k : Nat)
    (listed : .unsubscribe k ∈ as ++ [a]) : k < t'.sockets ∧ t'.closed k = true := by
  rcases List.mem_append.mp listed with earlier | last
  · obtain ⟨made, ended⟩ := sound.ended k earlier
    exact closed_kept performed made ended
  · obtain rfl : .unsubscribe k = a := List.mem_singleton.mp last
    have closes := (closesOwn_iff performed).mpr own k rfl t' performed
    refine ⟨?_, by rw [closes, Function.update_self]⟩
    obtain ⟨made, ⟨_, rfl⟩ | ⟨last, _, rfl⟩⟩ := step_cases performed
    · exact made
    · exact made

/-- The `onMessage` of a subscription listens on its socket while that is open. -/
theorem listening_step {as : List TransportAction} {a : TransportAction}
    (sound : Sound floats as t) (performed : t.step floats a = some t') (k : Nat)
    (made : k < t'.sockets) (isOpen : t'.closed k = false) : t'.listeners k = [k] := by
  have effect := step_cases performed
  cases a with
  | subscribe =>
    obtain rfl : t' = _ := effect
    rw [closed_connect] at isOpen
    rw [listeners_connect]
    -- a new socket has the one listener that `subscribe` adds
    by_cases new : k = t.sockets
    · rw [if_pos new, new]
    · rw [if_neg new] at isOpen ⊢
      exact sound.listening k (Nat.lt_of_le_of_ne (Nat.le_of_lt_succ made) new) isOpen
  | unsubscribe k' =>
    obtain ⟨_, ⟨_, rfl⟩ | ⟨last, _, rfl⟩⟩ := effect
    · exact sound.listening k made isOpen
    · rw [closed_unsubscribe] at isOpen
      -- a listener is only taken from the socket that is closed as well
      by_cases closes : k = last
      · rw [if_pos closes] at isOpen
        cases isOpen
      · rw [if_neg closes] at isOpen
        refine Eq.trans ?_ (sound.listening k made isOpen)
        exact (listeners_removeEventListener t last k k').trans (if_neg closes)
  | deliver socket data =>
    obtain ⟨_, _, ⟨_, rfl⟩ | ⟨event, _, rfl⟩⟩ := effect
    · exact sound.listening k made isOpen
    · exact sound.listening k made isOpen
  | lost socket =>
    obtain ⟨_, rfl⟩ := effect
    rw [closed_close] at isOpen
    split at isOpen
    · cases isOpen
    · exact sound.listening k made isOpen

/-- A frame on an open socket calls the handler of the socket's own subscription. -/
theorem handled_deliver {as : List TransportAction} {socket : Nat} {data : MessageData}
    (sound : Sound floats as t) (performed : t.step floats (.deliver socket data) = some t')
    (k : Nat) : t'.handledBy k = due floats k (as ++ [.deliver socket data]) := by
  obtain ⟨made, isOpen, ⟨malformed, rfl⟩ | ⟨event, decoded, rfl⟩⟩ := step_cases performed
  · refine handled_quiet sound rfl (fun k' _ => ?_) k
    rw [frameOf, malformed, ite_self]
  · have called : (t.dispatch socket event).handledBy k =
        due floats k as ++ if socket = k then [event] else [] := by
      rw [← sound.handled k, handledBy, dispatch, sound.listening socket made isOpen,
        List.filter_append, List.map_append]
      congr 1
      by_cases own : socket = k
      · simp [own]
      · simp [own]
    rw [called]
    by_cases own : socket = k
    · subst own
      -- an ended subscription has a closed socket, which delivers nothing
      have live : .unsubscribe socket ∉ as := by
        intro ended
        rw [(sound.ended socket ended).2] at isOpen
        cases isOpen
      rw [due_subscribed floats socket live, framesOf_singleton, frameOf, if_pos rfl, if_pos rfl,
        decoded, Option.toList_some]
    · rw [if_neg own, List.append_nil]
      by_cases ended : .unsubscribe k ∈ as
      · rw [due_unsubscribed floats k ended]
      · rw [due_subscribed floats k ended, framesOf_singleton, frameOf, if_neg own,
          Option.toList_none, List.append_nil]

theorem sound_step {as : List TransportAction} {a : TransportAction} (sound : Sound floats as t)
    (own : t.OwnLast a) (performed : t.step floats a = some t') :
    Sound floats (as ++ [a]) t' where
  listening := listening_step sound performed
  ended := ended_step sound own performed
  handled := by
    have effect := step_cases performed
    -- only a frame calls handlers; the rest leaves what was handled as it was
    cases a with
    | subscribe =>
      obtain rfl : t' = _ := effect
      exact handled_quiet sound rfl fun _ _ => rfl
    | unsubscribe k =>
      obtain ⟨_, ⟨_, rfl⟩ | ⟨last, _, rfl⟩⟩ := effect
      · exact handled_quiet sound rfl fun _ _ => rfl
      · exact handled_quiet sound rfl fun _ _ => rfl
    | deliver socket data => exact handled_deliver sound performed
    | lost socket =>
      obtain ⟨_, rfl⟩ := effect
      exact handled_quiet sound rfl fun _ _ => rfl

/-- The run rule. -/
theorem sound_run {as : List TransportAction} (own : Machine.Meets OwnLast (step floats) created as)
    (reached : Machine.run (step floats) created as = some t) : Sound floats as t :=
  Machine.run_induction sound_created
    (fun _ _ _ _ sound own performed => sound_step sound own performed) own reached

end Transport

/-- The subscriptions of a run are independent exactly if each unsubscribe function is run
while its own socket is the last one opened, or when neither of the two is open. -/
theorem independent_iff (floats : Floats) (as : List TransportAction) (t : Transport)
    (reached : Machine.run (Transport.step floats) .created as = some t) :
    Independent floats as ↔
      Machine.Meets Transport.OwnLast (Transport.step floats) .created as := by
  constructor
  · rintro ⟨closes, _⟩
    exact closes.imp (fun s a s' performed => (Transport.closesOwn_iff performed).mp) reached
  · intro own
    refine ⟨own.imp (fun s a s' performed => (Transport.closesOwn_iff performed).mpr) reached, ?_⟩
    rintro earlier later rfl mid before k
    exact (Transport.sound_run (own.append before).1 before).handled k

/-- The frame of a zone that now counts three entries. -/
def zoneFrame : MessageData :=
  .text (dumps chargedFloats (.object (envelope (Row.zoneCounts "aisle_a" 3).message)))

def zoneEvent : List UInt16 × Json Double :=
  (Json.ofString "zone_count_changed", (Row.zoneCounts "aisle_a" 3).payload)

theorem onMessage_zoneFrame : onMessage chargedFloats zoneFrame = some zoneEvent := by
  have committable : (Row.zoneCounts "aisle_a" 3).Committable := by constructor <;> decide
  have parsed : jsonParse chargedFloats
      (dumps chargedFloats (.object (envelope (Row.zoneCounts "aisle_a" 3).message))) =
        some (Row.zoneCounts "aisle_a" 3).received :=
    jsonParse_received committable trivial
  exact (congrArg (Option.bind · parsePatch) parsed).trans
    (parsePatch_received (Row.zoneCounts "aisle_a" 3))

theorem step_zoneFrame {t : Transport} {socket : Nat} (made : socket < t.sockets)
    (isOpen : t.closed socket = false) : t.step chargedFloats (.deliver socket zoneFrame) =
      some (t.dispatch socket zoneEvent) := by
  simp only [Transport.step, onMessage_zoneFrame]
  rw [if_pos ⟨made, isOpen⟩]

/-- Two subscriptions, of which one is ended before the first socket delivers a frame. -/
def overlapping (ended : Nat) : List TransportAction :=
  [.subscribe, .subscribe, .unsubscribe ended, .deliver 0 zoneFrame]

theorem run_overlapping (ended : Nat) (made : ended < 2) :
    Machine.run (Transport.step chargedFloats) .created (overlapping ended) =
      some (((Transport.created.connect.connect.removeEventListener 1 ended).close 1).dispatch 0
        zoneEvent) := by
  have unsubscribed : Transport.step chargedFloats Transport.created.connect.connect
      (.unsubscribe ended) =
        some ((Transport.created.connect.connect.removeEventListener 1 ended).close 1) :=
    if_pos made
  have delivered := step_zoneFrame
    (t := (Transport.created.connect.connect.removeEventListener 1 ended).close 1)
    (Nat.zero_lt_succ 1) rfl
  simp only [overlapping, Machine.run, Transport.step, Option.bind_some] at unsubscribed delivered ⊢
  rw [unsubscribed, Option.bind_some, delivered, Option.bind_some]

/-- The first unsubscribe closes the second socket, and its own handler is called again. -/
theorem overlapping_fails :
    (∃ t, Machine.run (Transport.step chargedFloats) .created (overlapping 0) = some t ∧
      t.closed 0 = false ∧ t.closed 1 = true ∧
      due chargedFloats 0 (overlapping 0) = [] ∧ t.handledBy 0 = [zoneEvent]) ∧
    ¬Independent chargedFloats (overlapping 0) := by
  have reached := run_overlapping 0 Nat.two_pos
  refine ⟨⟨_, reached, rfl, rfl, rfl, rfl⟩, ?_⟩
  rintro ⟨_, exactly⟩
  have called := exactly (overlapping 0) [] (List.append_nil _) _ reached 0
  cases called

theorem independent_iff_nested : Independent chargedFloats (overlapping 1) := by
  have reached := run_overlapping 1 Nat.one_lt_two
  apply (independent_iff chargedFloats (overlapping 1) _ reached).mpr
  refine ⟨trivial, ?_⟩
  rintro _ ⟨rfl⟩
  refine ⟨trivial, ?_⟩
  rintro _ ⟨rfl⟩
  refine ⟨.inl rfl, ?_⟩
  rintro _ ⟨rfl⟩
  exact ⟨trivial, fun _ _ => trivial⟩

end FleetTelemetry.Frontend
